import RevenueRecovery.Execution.Barred
import RevenueRecovery.Intervention.Service
import RevenueRecovery.LivePipeline.Ledger
import RevenueRecovery.LivePipeline.Simulation

/-!
# The terminal barrier

A trigger event's run checks for terminal events before it calls the executor. The check
reads what has been ingested by the run's evaluation time, which is fixed by the trigger
event, whenever the run gets there. A terminal event that was ingested by then keeps the run
from the executor, and the command it finds pending ends `NOT_NEEDED`
(`executor_not_called`); one that was ingested later does not, however long it has been
committed (`executor_called`).

## Main definitions
* `timed` : a command expires a fixed time after the evaluation time of its decision.
* `TriggerKnows` : the run of a trigger event decides and executes at its evaluation time.
* `Closing` : a run that has met a terminal event.
-/
namespace RevenueRecovery

open Transaction

/-! ## Evaluation times -/

/-- A decision is named by its attempt and version, and a command expires a fixed time after
the evaluation time of its decision. -/
def Timed (db : Database) : Write → Prop
  | .appendDecision d => d.decisionId = ⟨d.paymentAttemptId, d.decisionVersion⟩
  | .insertCommand c => c.commandId = ⟨c.decisionId⟩ ∧ ∃ d ∈ db.decisions,
      d.decisionId = c.decisionId ∧ d.paymentAttemptId = c.paymentAttemptId ∧
        d.decisionVersion = c.decisionVersion ∧
        c.expiresAt = d.inputFingerprint.tDecide + Time.seconds defaultExpiresInSeconds
  | _ => True

def timed : Justification where
  holds := Timed
  lasting {db db' w} hkeeps h := by
    cases w with
    | insertCommand c =>
        obtain ⟨hid, d, hd, hrest⟩ := h
        exact ⟨hid, d, hkeeps.decisions hd, hrest⟩
    | appendDecision d => exact h
    | _ => exact trivial

/-- The command carries out a decision for the attempt at the time. -/
def CommandFor (db : Database) (ref : AttemptRef) (t : Time) (id : CommandId) : Prop :=
  ∃ d ∈ db.decisions, DecidedFor ref t d ∧ id = ⟨d.decisionId⟩

/-- What the run of a trigger event knows of its call: it is for the attempt, at the
evaluation time. -/
def TriggerKnows (db : Database) (ref : AttemptRef) (t : Time) : CallProc → Prop
  | .predict _ _ | .predictLocked _ _ _ | .returned (.prediction _) | .returned .executed => True
  | .decide ref' t' => ref' = ref ∧ t' = t
  | .decideLocked ctx | .decideAdmit ctx _ => ctx.ref = ref ∧ ctx.tDecide = t
  | .create d expiresInSeconds t' =>
      (d ∈ db.decisions ∧ DecidedFor ref t d) ∧ expiresInSeconds = defaultExpiresInSeconds ∧ t' = t
  | .execute id t' _ => CommandFor db ref t id ∧ t' = t
  | .returned (.decision d) => d ∈ db.decisions ∧ DecidedFor ref t d
  | .returned (.command c) => CommandFor db ref t c.commandId
  | _ => False

/-- The run of a terminal event observes and attributes. -/
def CallProc.settles : CallProc → Prop
  | .observe _ _ | .attributePayment _ _ | .attributeLocked _ _
  | .returned (.observation _) | .returned (.attribution _) => True
  | _ => False

/-- What a run knows of its call. -/
def LiveKnows (db : Database) (_ : List Write) : LiveProc → Prop
  | .trigger e ref p => TriggerKnows db ref (tEval e) p
  | .settling _ _ _ _ p => p.settles
  | _ => True

section Steps
variable {policy : InterventionPolicy} {db db' : Database} {ref : AttemptRef} {t : Time}
  {p next : CallProc} {input : CallInput} {reads : ℕ → Database} {now : Database}

theorem CommandFor.mono {id : CommandId} (h : CommandFor db ref t id) (hkeeps : Keeps db db') :
    CommandFor db' ref t id := by
  obtain ⟨d, hd, hrest⟩ := h
  exact ⟨d, hkeeps.decisions hd, hrest⟩

theorem TriggerKnows.mono (h : TriggerKnows db ref t p) (hkeeps : Keeps db db') :
    TriggerKnows db' ref t p := by
  cases p with
  | create d e t' => exact ⟨⟨hkeeps.decisions h.1.1, h.1.2⟩, h.2⟩
  | execute id t' q => exact ⟨h.1.mono hkeeps, h.2⟩
  | returned result =>
      cases result with
      | decision d => exact ⟨hkeeps.decisions h.1, h.2⟩
      | command c => exact CommandFor.mono h hkeeps
      | _ => exact h
  | _ => exact h

/-- A command that is read carries out a decision of its own attempt and version. -/
theorem timed_command (h : Justified timed db) {c : InterventionCommand}
    (hc : c ∈ db.commands) : Timed db (.insertCommand c) := by
  obtain ⟨c₀, hsame, hid, d, hd, hrest⟩ := h.commands c hc
  rw [hsame]
  exact ⟨hid, d, hd, hrest⟩

/-- A call of a trigger event's run writes timed rows, and goes on at its evaluation time. -/
theorem CallStepped.triggerKnows {ws : List Write} {model : FailurePredictionModel}
    (h : CallStepped model policy input reads now p (.write ws next))
    (hknows : TriggerKnows db ref t p) (hrows : Justified timed db)
    (hreads : ∀ k, Keeps (reads k) db) :
    (∀ w ∈ ws, Timed (ws.foldl Database.apply db) w) ∧
      TriggerKnows (ws.foldl Database.apply db) ref t next := by
  generalize ho : Outcome.write ws next = o at h
  cases h with
  | predictStored => cases ho; exact ⟨by simp, trivial⟩
  | predicted => cases ho; exact ⟨by simp [Timed], trivial⟩
  | @decideStored ref' t' d hres =>
      cases ho
      obtain ⟨rfl, rfl⟩ := hknows
      refine ⟨by simp, ?_, decideUpstream_decidedFor hres⟩
      rcases decideUpstream_spec hres with ⟨d', heq, hd⟩ | ⟨ctx, heq, -⟩
      · cases heq
        exact (hreads 16).decisions hd
      · cases heq
  | @lockedStored ctx d hres =>
      cases ho
      obtain ⟨rfl, rfl⟩ := hknows
      refine ⟨by simp, ?_, decideLocked_decidedFor (.inl hres)⟩
      rcases decideLocked_spec policy (input.reads reads) ctx with
        ⟨d', hs, hd⟩ | ⟨verdict, hs, -⟩ | ⟨_, hs, -⟩
      · obtain rfl : d = d' := by simpa [hres] using hs
        exact (hreads 0).decisions hd
      · simp [hres] at hs
      · simp [hres] at hs
  | @lockedAppend ctx d hres =>
      cases ho
      obtain ⟨rfl, rfl⟩ := hknows
      refine ⟨?_, List.mem_append_right _ (List.mem_singleton.mpr rfl),
        decideLocked_decidedFor (.inr hres)⟩
      rcases decideLocked_spec policy (input.reads reads) ctx with
        ⟨_, hs, -⟩ | ⟨verdict, hs, -⟩ | ⟨_, hs, -⟩
      · simp [hres] at hs
      · obtain rfl : d = _ := by simpa [hres] using hs
        simp [Timed, newDecision]
      · simp [hres] at hs
  | @admitted ctx verdict =>
      cases ho
      obtain ⟨rfl, rfl⟩ := hknows
      exact ⟨by simp [Timed, decideAdmitted, newDecision],
        List.mem_append_right _ (List.mem_singleton.mpr rfl), newDecision_decidedFor ..⟩
  | @createExisting d e t' c hres =>
      cases ho
      obtain ⟨⟨hd, hfor⟩, -, -⟩ := hknows
      refine ⟨by simp, d, hd, hfor, ?_⟩
      have hstored : ∀ k, c ∈ (reads k).commands → Timed db (.insertCommand c) := by
        intro k hc
        obtain ⟨c', hc', hsame⟩ := (hreads k).commands c hc
        have htimed := timed_command hrows hc'
        rw [hsame] at htimed
        exact htimed
      obtain ⟨-, route, -, hcases⟩ := createCommand_spec hres
      rcases hcases with ⟨c', heq, hc, hid, -⟩ | ⟨c', heq, hc, hkey, hversion, -⟩ | heq
      · obtain rfl := Sum.inl.inj heq
        rw [(hstored 1 hc).1, hid]
      · obtain rfl := Sum.inl.inj heq
        obtain ⟨hself, d', hd', hid', hkey', hversion', -⟩ := hstored 2 hc
        have hname : d'.decisionId = ⟨d'.paymentAttemptId, d'.decisionVersion⟩ :=
          hrows.decisions d' hd'
        have hname' : d.decisionId = ⟨d.paymentAttemptId, d.decisionVersion⟩ :=
          hrows.decisions d hd
        rw [hself, ← hid', hname, hname', hkey', hversion', hkey, hversion]
      · cases heq
  | @created d e t' c hres =>
      cases ho
      obtain ⟨⟨hd, hfor⟩, rfl, rfl⟩ := hknows
      obtain ⟨-, route, -, hcases⟩ := createCommand_spec hres
      rcases hcases with ⟨_, heq, -⟩ | ⟨_, heq, -⟩ | heq
      · cases heq
      · cases heq
      · obtain rfl := Sum.inr.inj heq
        refine ⟨?_, d, hd, hfor, rfl⟩
        rw [List.forall_mem_singleton]
        exact ⟨rfl, d, hd, rfl, rfl, rfl, by rw [hfor.2]; rfl⟩
  | executeDone => cases ho; exact ⟨by simp, trivial⟩
  | @executing id t' q o' hq hstep =>
      cases o' with
      | write vs next' =>
          obtain ⟨rfl, rfl⟩ := Outcome.write.inj ho
          refine ⟨fun w hw => ?_, hknows.1.mono (.foldl _ _), hknows.2⟩
          have hown := executeStep_write hstep w hw
          cases w <;> first | exact trivial | exact absurd hown (by simp [Write.ofExecution])
      | _ => cases ho
  | @returned result => cases ho; exact ⟨by simp, hknows⟩
  | observed => exact absurd hknows (by simp [TriggerKnows])
  | attributeStored => exact absurd hknows (by simp [TriggerKnows])
  | attributed => exact absurd hknows (by simp [TriggerKnows])
  | _ => cases ho

/-- A call of a terminal event's run writes no decisions and commands. -/
theorem CallStepped.settles {ws : List Write} {model : FailurePredictionModel}
    (h : CallStepped model policy input reads now p (.write ws next)) (hp : p.settles) :
    (∀ w ∈ ws, Timed (ws.foldl Database.apply db) w) ∧ next.settles := by
  generalize ho : Outcome.write ws next = o at h
  cases h with
  | observed => cases ho; exact ⟨by simp [Timed], trivial⟩
  | attributeStored => cases ho; exact ⟨by simp, trivial⟩
  | attributed => cases ho; exact ⟨by simp [Timed], trivial⟩
  | returned => cases ho; exact ⟨by simp, hp⟩
  | attributeLock => cases ho
  | _ => exact absurd hp (by simp [CallProc.settles])

/-- A call that takes a lock or calls the executor goes on with what it knew. -/
theorem CallStepped.knows {model : FailurePredictionModel} {o : CallOutcome}
    (h : CallStepped model policy input reads now p o) (hwrite : ∀ ws q, o ≠ .write ws q) :
    (∀ db ref t, TriggerKnows db ref t p → TriggerKnows db ref t o.next) ∧
      (p.settles → o.next.settles) := by
  cases h with
  | predictLock => exact ⟨fun _ _ _ => id, id⟩
  | @decideLock ref' t' ctx hres =>
      refine ⟨?_, id⟩
      rintro db ref t ⟨rfl, rfl⟩
      rcases decideUpstream_spec hres with ⟨d', heq, -⟩ | ⟨ctx', heq, href, ht⟩
      · cases heq
      · cases heq
        exact ⟨href, ht⟩
  | lockedAct => exact ⟨fun _ _ _ => id, id⟩
  | attributeLock => exact ⟨fun _ _ _ => id, id⟩
  | @executing commandId t' q o' hq hstep => cases o' <;> exact ⟨fun _ _ _ => id, id⟩
  | _ => exact absurd rfl (hwrite _ _)

/-- Runs write timed rows, and know the evaluation time they decide and execute at. -/
theorem liveProgram_timed (policy : InterventionPolicy) :
    timed.Informed (liveProgram policy) (fun _ _ _ => True) LiveKnows where
  apply := rfl
  lasting {db db' ws p} hkeeps h := by
    cases p with
    | trigger e ref p => exact TriggerKnows.mono h hkeeps
    | _ => exact h
  arrive {db e ws ps} harr := by
    obtain ⟨rfl, rfl⟩ := liveProgram_arrive harr
    refine ⟨by simp [timed, Timed], fun p hp db' => ?_⟩
    rcases pipelineRuns_cases hp with ⟨-, rfl⟩ | ⟨-, rfl⟩ <;> trivial
  error db p := by cases p <;> trivial
  step {db s input o} hrows hreads hknows _ ho := by
    cases liveStepped ho with
    | @called p f o' hproc hp hcall =>
        generalize hx : s.proc = x at hproc hknows
        cases x with
        | trigger e ref q =>
            cases hproc
            cases o' with
            | write ws next =>
                simp only [Outcome.map, view_wrote]
                exact hcall.triggerKnows hknows hrows hreads
            | lock | call => exact (hcall.knows (by simp)).1 _ _ _ hknows
            | commit next => exact absurd rfl (hcall.inside.1 next)
            | rollback next => exact absurd rfl (hcall.inside.2 next)
        | settling e id asOf queue q =>
            cases hproc
            cases o' with
            | write ws next =>
                simp only [Outcome.map, view_wrote]
                exact hcall.settles hknows
            | lock | call => exact (hcall.knows (by simp)).2 hknows
            | commit next => exact absurd rfl (hcall.inside.1 next)
            | rollback next => exact absurd rfl (hcall.inside.2 next)
        | _ => cases hproc
    | @triggerReturned e ref result hproc =>
        simp only [view_wrote, List.foldl_nil]
        refine ⟨by simp, ?_⟩
        rw [hproc] at hknows
        cases result with
        | prediction q => simp only [afterTriggerCall]; split <;> trivial
        | decision d =>
            simp only [afterTriggerCall]
            split
            · exact ⟨hknows, rfl, rfl⟩
            · trivial
        | command c => exact ⟨hknows, rfl⟩
        | _ => trivial
    | @settlingReturned e id asOf queue result hproc =>
        refine ⟨by simp, ?_⟩
        cases result <;> trivial
    | failed => exact fun _ => trivial
    | analyticsStored => exact fun _ => trivial
    | finish => exact fun _ => trivial
    | registered => exact ⟨by simp, trivial⟩
    | _ => exact ⟨by simp [timed, Timed], trivial⟩

end Steps

/-! ## Stages of an execution -/

/-- The run is past its execution. -/
def LiveProc.leaving : LiveProc → Prop
  | .trigger _ _ (.execute _ _ .done) | .trigger _ _ (.returned .executed)
  | .finish | .finished | .failed => True
  | _ => False

/-- The run will not call the executor. -/
def LiveProc.barred : LiveProc → Prop
  | .trigger _ _ (.execute _ _ (.close _ _)) => True
  | p => p.leaving

/-- The run is a terminal event's, or may have called the executor. -/
def LiveProc.spent : LiveProc → Prop
  | .trigger _ _ (.execute _ _ (.running _)) | .trigger _ _ (.execute _ _ (.finalize _))
  | .settle _ _ | .settling _ _ _ _ _ => True
  | p => p.leaving

section Stages
variable {policy : InterventionPolicy} {db : Database} {s : LiveSession} {input : LiveInput}
  {o : LiveOutcome}

/-- A run past its execution writes nothing, and commits at its end. -/
theorem leaving_step (ho : (liveProgram policy).outcome db s input = some o)
    (h : s.proc.leaving) :
    (∃ next, o = .write [] next ∧ next.leaving ∧ next ≠ .finished ∧ s.proc ≠ .finished) ∨
      s.proc = .finish ∧ o = .commit .finished := by
  have hstep : liveStep policy s.proc input ((liveProgram policy).reads db s)
    ((liveProgram policy).view db s) = some o := ho
  generalize s.proc = p at h hstep ⊢
  cases p with
  | trigger e ref q =>
      cases q with
      | execute id t q =>
          cases q with
          | done => exact .inl ⟨_, (Option.some.inj hstep).symm, trivial, by simp, by simp⟩
          | _ => exact absurd h (by simp [LiveProc.leaving])
      | returned result =>
          cases result with
          | executed =>
              exact .inl ⟨_, (Option.some.inj hstep).symm, trivial, by simp [afterTriggerCall],
                by simp⟩
          | _ => exact absurd h (by simp [LiveProc.leaving])
      | _ => exact absurd h (by simp [LiveProc.leaving])
  | finish => exact .inr ⟨rfl, (Option.some.inj hstep).symm⟩
  | finished => cases hstep
  | failed => cases hstep
  | _ => exact absurd h (by simp [LiveProc.leaving])

/-- A run about to close its command updates it. -/
theorem close_step {e : PaymentEvent} {ref : AttemptRef} {id : CommandId} {t : Time}
    {target : CommandStatus} {reason : String}
    (ho : (liveProgram policy).outcome db s input = some o)
    (hproc : s.proc = .trigger e ref (.execute id t (.close target reason))) :
    o = .write [.updateCommandStatus id .pending target (some reason) t]
      (.trigger e ref (.execute id t .done)) := by
  have hstep : liveStep policy s.proc input ((liveProgram policy).reads db s)
    ((liveProgram policy).view db s) = some o := ho
  rw [hproc] at hstep
  exact (Option.some.inj hstep).symm

/-- A run that has passed its barrier without a claim writes, or commits at its end. -/
theorem barred_step (ho : (liveProgram policy).outcome db s input = some o)
    (h : s.proc.barred) :
    (∃ ws next, o = .write ws next ∧ next.barred) ∨ s.proc = .finish ∧ o = .commit .finished := by
  by_cases hclose : ∃ e ref id t target reason,
      s.proc = .trigger e ref (.execute id t (.close target reason))
  · obtain ⟨e, ref, id, t, target, reason, hproc⟩ := hclose
    exact .inl ⟨_, _, close_step ho hproc, trivial⟩
  · have hleaving : s.proc.leaving := by
      unfold LiveProc.barred at h
      split at h
      · rename_i hproc
        exact absurd ⟨_, _, _, _, _, _, hproc⟩ hclose
      · exact h
    refine (leaving_step ho hleaving).imp_left ?_
    rintro ⟨next, heq, hnext, -⟩
    refine ⟨_, next, heq, ?_⟩
    unfold LiveProc.barred
    split
    · trivial
    · exact hnext

theorem barred_closed (policy : InterventionPolicy) :
    (liveProgram policy).Closed LiveProc.barred where
  error p h := by cases p <;> trivial
  step ho h := by
    rcases barred_step ho h with ⟨ws, next, rfl, hnext⟩ | ⟨-, rfl⟩
    · exact hnext
    · trivial

/-- A terminal event's run settles until it ends. -/
theorem settlement_step {x : LiveProc} (ho : (liveProgram policy).outcome db s input = some o)
    (hproc : s.proc = x) (h : (∃ e queue, x = .settle e queue) ∨
      ∃ e id asOf queue p, x = .settling e id asOf queue p) : o.next.spent := by
  cases liveStepped ho with
  | failed => trivial
  | settleNil => trivial
  | settleCons => trivial
  | @settlingReturned e id asOf queue result => cases result <;> trivial
  | @called p f o' hcall =>
      rw [hproc] at hcall
      rcases h with ⟨e, queue, rfl⟩ | ⟨e, id, asOf, queue, q, rfl⟩
      · cases hcall
      · cases hcall
        cases o' <;> trivial
  | analytics hproc' | analyticsStored hproc' | noAttempt hproc' | register hproc'
  | readCommands hproc' | registered hproc' | conflict hproc' | triggerReturned hproc'
  | finish hproc' =>
      rw [hproc] at hproc'
      rcases h with ⟨_, _, rfl⟩ | ⟨_, _, _, _, _, rfl⟩ <;> cases hproc'

/-- A trigger event's run that has called the executor is past its claim. -/
theorem spent_spends (policy : InterventionPolicy) :
    (liveProgram policy).Spends LiveProc.spent where
  error p h := by cases p <;> trivial
  step {db s input o} ho h := by
    by_cases hleaving : s.proc.leaving
    · rcases leaving_step ho hleaving with ⟨next, rfl, hnext, -⟩ | ⟨-, rfl⟩
      · change next.spent
        unfold LiveProc.spent
        split
        · trivial
        · trivial
        · trivial
        · trivial
        · exact hnext
      · trivial
    · have hstep : liveStep policy s.proc input ((liveProgram policy).reads db s)
        ((liveProgram policy).view db s) = some o := ho
      unfold LiveProc.spent at h
      split at h
      · rename_i e ref id t cmd hproc
        rw [hproc] at hstep
        cases hr : input.result with
        | none =>
            obtain rfl : Outcome.rollback .failed = o := by
              simpa [liveStep, callStep, executeStep, hr, Except.map, orFail] using hstep
            trivial
        | some res =>
            obtain rfl : Outcome.write _ (.trigger e ref (.execute id t (.finalize res))) = o := by
              simpa [liveStep, callStep, executeStep, hr, Except.map, orFail, Outcome.map]
                using hstep
            trivial
      · rename_i e ref id t res hproc
        rw [hproc] at hstep
        exact Option.some.inj hstep ▸ trivial
      · rename_i hproc
        exact settlement_step ho hproc (.inl ⟨_, _, rfl⟩)
      · rename_i hproc
        exact settlement_step ho hproc (.inr ⟨_, _, _, _, _, rfl⟩)
      · exact absurd h hleaving
  call {db s input effect next} ho := by
    generalize hout : Outcome.call effect next = o at ho
    cases liveStepped ho with
    | @called p f o' hproc hp hcall =>
        cases hcall with
        | @executing id t q o'' hq hex =>
            cases o'' with
            | call cmd q' =>
                obtain ⟨-, rfl, -⟩ := executeStep_call hex
                cases hx : s.proc <;> rw [hx] at hproc <;> cases hproc <;> cases hout <;> trivial
            | _ => cases hout
        | _ => cases hout
    | _ => cases hout

end Stages

/-! ## Closing a command -/

/-- The run has met a terminal event: it is about to close its command, which it has locked
and sees pending, or has closed it, or has failed. -/
inductive Closing (policy : InterventionPolicy) (id : CommandId) (db : Database)
    (s : LiveSession) : Prop
  | closing {e ref t reason c}
      (hproc : s.proc = .trigger e ref (.execute id t (.close .notNeeded reason)))
      (hlock : .command id ∈ s.locks) (hc : c ∈ ((liveProgram policy).view db s).commands)
      (hid : c.commandId = id) (hpending : c.commandStatus = .pending)
  | closed {c} (hproc : s.proc.leaving) (hne : s.proc ≠ .finished)
      (hlock : .command id ∈ s.locks) (hc : c ∈ ((liveProgram policy).view db s).commands)
      (hid : c.commandId = id) (hstatus : c.commandStatus = .notNeeded)
  | ended {c} (hproc : s.proc = .finished) (hpending : s.pending = []) (hc : c ∈ db.commands)
      (hid : c.commandId = id) (hstatus : c.commandStatus = .notNeeded)
  | failed (hproc : s.proc = .failed)

section Closes
variable {policy : InterventionPolicy} {id : CommandId} {db db' : Database} {s t : LiveSession}

/-- A later store keeps the command as the run has locked it. -/
theorem Closing.mono (h : Closing policy id db s)
    (hlocked : .command id ∈ s.locks → KeepsRows id db db') (hevolve : CommandsEvolve db db') :
    Closing policy id db' s := by
  cases h with
  | closing hproc hlock hc hid hpending =>
      exact .closing hproc hlock ((hlocked hlock).foldl_mono _ hc hid) hid hpending
  | closed hproc hne hlock hc hid hstatus =>
      exact .closed hproc hne hlock ((hlocked hlock).foldl_mono _ hc hid) hid hstatus
  | @ended c hproc hpending hc hid hstatus =>
      obtain ⟨c', hc', hevolves⟩ := hevolve c hc
      have hid' : c'.commandId = c.commandId := by rw [hevolves.payload]; rfl
      have hfinal : c'.commandStatus = c.commandStatus :=
        hevolves.status_eq (by rw [hstatus]; rfl)
      exact .ended hproc hpending hc' (hid'.trans hid) (hfinal.trans hstatus)
  | failed hproc => exact .failed hproc

theorem Closing.onError (h : Closing policy id db s) :
    Closing policy id db (.fresh (LiveProc.onError s.proc)) := by
  cases h with
  | closing hproc => exact .failed (by rw [hproc]; rfl)
  | closed hproc hne => exact .failed (by cases h : s.proc <;> first | rfl | exact absurd h hne)
  | ended hproc _ hc hid hstatus => exact .ended (by rw [hproc]; rfl) rfl hc hid hstatus
  | failed hproc => exact .failed (by rw [hproc]; rfl)

/-- What the run writes closes its command, or nothing. -/
theorem Closing.wrote {input : LiveInput} {ws : List Write} {next : LiveProc}
    (h : Closing policy id db s)
    (ho : (liveProgram policy).outcome db s input = some (.write ws next)) :
    Closing policy id db (s.wrote ws next) := by
  cases h with
  | @closing e ref t reason c hproc hlock hc hid hpending =>
      obtain ⟨rfl, rfl⟩ := Outcome.write.inj (close_step ho hproc)
      refine .closed trivial (by simp [Session.wrote]) hlock
        (c := c.setStatus .notNeeded (some reason) t) ?_ hid rfl
      rw [view_wrote]
      exact List.mem_map.mpr ⟨c, hc, if_pos ⟨hid, hpending⟩⟩
  | @closed c hproc hne hlock hc hid hstatus =>
      rcases leaving_step ho hproc with ⟨next', heq, hnext, hne', -⟩ | ⟨-, heq⟩
      · obtain ⟨rfl, rfl⟩ := Outcome.write.inj heq
        refine .closed hnext hne' hlock (c := c) ?_ hid hstatus
        rw [view_wrote]
        exact hc
      · cases heq
  | ended hproc =>
      rcases leaving_step ho (by rw [hproc]; trivial) with ⟨_, -, -, -, hne⟩ | ⟨hfinish, -⟩
      · exact absurd hproc hne
      · rw [hproc] at hfinish
        cases hfinish
  | failed hproc =>
      have hstep : liveStep policy s.proc input ((liveProgram policy).reads db s)
        ((liveProgram policy).view db s) = some (.write ws next) := ho
      rw [hproc] at hstep
      cases hstep

theorem Closing.barred (h : Closing policy id db s) : s.proc.barred := by
  cases h with
  | closing hproc => rw [hproc]; trivial
  | closed hproc =>
      unfold LiveProc.barred
      split
      · trivial
      · exact hproc
  | ended hproc => rw [hproc]; trivial
  | failed hproc => rw [hproc]; trivial

/-- What holds of a run as a connection: it holds the locks of what it executes, and sees the
commands it has locked as it has read them. -/
def LiveStarted (policy : InterventionPolicy) (db : Database) (s : LiveSession) : Prop :=
  StartedSession deterministicBaselineModel policy db s.transaction ∧
    ∀ v ∈ s.transaction.views, SeesLocked s.transaction.locks v
      ((transactionProgram deterministicBaselineModel policy).view db s.transaction)

/-- A run that has met a terminal event goes on to close its command. -/
theorem closing_carried (policy : InterventionPolicy) (id : CommandId) :
    (liveProgram policy).Carried Started (LiveStarted policy) (Closing policy id) where
  arrive {db e ws ps s} _ _ h harr := by
    obtain ⟨rfl, -⟩ := liveProgram_arrive harr
    exact h.mono (fun _ => .foldl (by simp [Write.touches]))
      (.foldl db (by simp [Write.legal]))
  look {db s} _ _ h := by
    cases h with
    | closing hproc hlock hc hid hpending => exact .closing hproc hlock hc hid hpending
    | closed hproc hne hlock hc hid hstatus => exact .closed hproc hne hlock hc hid hstatus
    | ended hproc hpending hc hid hstatus => exact .ended hproc hpending hc hid hstatus
    | failed hproc => exact .failed hproc
  abort _ _ h := h.onError
  lock _ _ h ho := by rcases barred_step ho h.barred with ⟨_, _, heq, -⟩ | ⟨-, heq⟩ <;> cases heq
  write _ _ h ho _ := h.wrote ho
  call _ _ h ho := by rcases barred_step ho h.barred with ⟨_, _, heq, -⟩ | ⟨-, heq⟩ <;> cases heq
  rollback _ _ h ho := by
    rcases barred_step ho h.barred with ⟨_, _, heq, -⟩ | ⟨-, heq⟩ <;> cases heq
  commit {db s input next} _ _ h ho := by
    rcases barred_step ho h.barred with ⟨_, _, heq, -⟩ | ⟨hfinish, heq⟩
    · cases heq
    · obtain rfl := Outcome.commit.inj heq
      cases h with
      | closing hproc => rw [hproc] at hfinish; cases hfinish
      | closed hproc hne hlock hc hid hstatus => exact .ended rfl rfl hc hid hstatus
      | ended hproc => rw [hproc] at hfinish; cases hfinish
      | failed hproc => rw [hproc] at hfinish; cases hfinish
  other {db s t input next} _ hs h ht hapart _ :=
    h.mono (fun hlock => ht.1.keepsRows fun hmem => hapart.locks _ hmem hlock)
      (.foldl db ht.1.legal)

end Closes

/-! ## The barrier -/

section Barrier
variable {policy : InterventionPolicy} {as : List LiveAction} {w : LiveWorld} {i : ℕ}
  {s : LiveSession} {e : PaymentEvent} {ref : AttemptRef} {id : CommandId} {t : Time}

/-- The connections of the runs keep the invariant of executions. -/
def Connected (policy : InterventionPolicy) (w : LiveWorld) : Prop :=
  (transactionProgram deterministicBaselineModel policy).Good Started
    (fun db s => StartedSession deterministicBaselineModel policy db s ∧
      ∀ v ∈ s.views, SeesLocked s.locks v
        ((transactionProgram deterministicBaselineModel policy).view db s)) w.transactions

theorem Connected.good (h : Connected policy w) :
    (liveProgram policy).Good Started (LiveStarted policy) w := (liveSimulation policy).good h

theorem Connected.step {w' : LiveWorld} {a : LiveAction} (h : Connected policy w)
    (hstep : (liveProgram policy).worldStep w a = some w') : Connected policy w' :=
  (liveSimulation policy).good_step ((startedStable _ _).invariant (startedInvariant _ _)) h hstep

theorem liveRun_connected (h : liveRun policy as = some w) : Connected policy w := by
  obtain ⟨as', h'⟩ := liveRun_transactions h
  exact ((startedStable _ _).invariant (startedInvariant _ _)).exec_true
    (.empty (by simp [Started])) h'

/-- A run about to execute does so at its evaluation time. -/
theorem liveRun_liveKnows (h : liveRun policy as = some w) (hs : w.sessions[i]? = some s) :
    Justified timed ((liveProgram policy).view w.db s) ∧
      (∀ k, Keeps ((liveProgram policy).reads w.db s k) ((liveProgram policy).view w.db s)) ∧
      LiveKnows ((liveProgram policy).view w.db s) s.pending s.proc := by
  have hgood := (liveProgram_timed policy).invariant.exec_true (.empty (.empty timed)) h
  obtain ⟨hjustified, hknows⟩ := hgood.session s (List.mem_of_getElem? hs)
  exact ⟨hjustified.view rfl hgood.store, hjustified.reads, hknows⟩

/-- A command that a run is about to execute is of the attempt, and has not expired. -/
theorem liveRun_commandFor (h : liveRun policy as = some w) (hs : w.sessions[i]? = some s)
    {q : ExecuteProc} (hproc : s.proc = .trigger e ref (.execute id t q)) :
    t = tEval e ∧ ∀ k c, ((liveProgram policy).reads w.db s k).getCommandById id = some c →
      c.paymentAttemptId = ref.paymentAttemptId ∧ t < c.expiresAt := by
  obtain ⟨hrows, hreads, hknows⟩ := liveRun_liveKnows h hs
  rw [hproc] at hknows
  obtain ⟨⟨d, hd, hfor, hid⟩, rfl⟩ := hknows
  refine ⟨rfl, fun k c hget => ?_⟩
  obtain ⟨c', hc', hsame⟩ := (hreads k).commands c (List.mem_of_find?_eq_some hget)
  have hself : c'.commandId = id :=
    hsame.commandId.trans (by simpa using List.find?_some hget)
  obtain ⟨hname, d', hd', hid', hkey, -, hexpires⟩ := timed_command hrows hc'
  have hunique : Unique ((liveProgram policy).view w.db s) :=
    have hmet := liveRun_met h
    (Database.constraints rfl rfl rfl).keep_applyAll hmet.store
      (hmet.pending s (List.mem_of_getElem? hs))
  have hsameId : d'.decisionId = d.decisionId := by
    have hcommand : (⟨c'.decisionId⟩ : CommandId) = ⟨d.decisionId⟩ :=
      hname.symm.trans (hself.trans hid)
    exact hid'.trans (CommandId.mk.inj hcommand)
  obtain rfl := hunique.decision_eq hd' hd hsameId
  refine ⟨?_, ?_⟩
  · exact hsame.paymentAttemptId.symm.trans (hkey.symm.trans hfor.1)
  · have hlater : tEval e < c'.expiresAt := by
      rw [hexpires, hfor.2]
      simp [defaultExpiresInSeconds, Time.seconds]
    have hsameExpiry : c'.expiresAt = c.expiresAt := by rw [hsame]; rfl
    exact hsameExpiry ▸ hlater

/-- A check either fails or finds how the execution goes on. -/
theorem check_step {db : Database} {input : LiveInput} {o : LiveOutcome}
    (ho : (liveProgram policy).outcome db s input = some o)
    (hproc : s.proc = .trigger e ref (.execute id t .check)) :
    o = .rollback .failed ∨ ∃ q,
      executeCheck (input.toCallInput.reads ((liveProgram policy).reads db s)) id t = .ok q ∧
        o = .write [] (.trigger e ref (.execute id t q)) := by
  have hstep : liveStep policy s.proc input ((liveProgram policy).reads db s)
    ((liveProgram policy).view db s) = some o := ho
  rw [hproc] at hstep
  simp only [liveStep, callStep, executeStep] at hstep
  cases hc : executeCheck (input.toCallInput.reads ((liveProgram policy).reads db s)) id t with
  | error err =>
      rw [hc] at hstep
      exact .inl (Option.some.inj hstep).symm
  | ok q =>
      rw [hc] at hstep
      exact .inr ⟨q, rfl, (Option.some.inj hstep).symm⟩

/-- A run that is past the lock of its command sees it as every statement reads it. -/
theorem liveRun_locked (h : liveRun policy as = some w) (hs : w.sessions[i]? = some s)
    {q : ExecuteProc} (hproc : s.proc = .trigger e ref (.execute id t q)) (hq : q ≠ .start) :
    .command id ∈ s.locks ∧ ∀ k c,
      ((liveProgram policy).reads w.db s k).getCommandById id = some c →
        c ∈ ((liveProgram policy).view w.db s).commands := by
  obtain ⟨hstarted, hsees⟩ := (liveRun_connected h).good.session s (List.mem_of_getElem? hs)
  have hcall := hstarted.call
  rw [Session.proc_map, hproc] at hcall
  have hlock : .command id ∈ s.locks := hcall.1 hq
  refine ⟨hlock, fun k c hget => ?_⟩
  have hviews : s.transaction.views = s.views := by
    simp [Session.map, hproc, LiveProc.isCalling]
  have hkeeps : SeesLocked s.locks ((liveProgram policy).reads w.db s k)
      ((liveProgram policy).view w.db s) :=
    Program.reads_of_views (A := fun v => SeesLocked s.locks v ((liveProgram policy).view w.db s))
      (fun v hv => hsees v (hviews ▸ hv)) (fun _ _ _ hc _ => hc) k
  exact hkeeps id hlock c (List.mem_of_find?_eq_some hget)
    (by simpa using List.find?_some hget)

/-- The check that reads a terminal event of the attempt bars the run. -/
theorem check_bars {input : LiveInput} {w' : LiveWorld} (h : liveRun policy as = some w)
    (hs : w.sessions[i]? = some s) (hproc : s.proc = .trigger e ref (.execute id t .check))
    (hread : ∃ e' ∈ ((liveProgram policy).reads w.db s 2).events,
      isTerminalOf ref.paymentAttemptId e' = true ∧ e'.ingestedAt ≤ tEval e)
    (hstep : (liveProgram policy).worldStep w (.advance i input) = some w') :
    w'.calls = w.calls ∧ ∃ s', w'.sessions[i]? = some s' ∧ s'.proc.barred ∧
      ((∃ c, ((liveProgram policy).reads w.db s 0).getCommandById id = some c ∧
        c.commandStatus = .pending) → Closing policy id w'.db s') := by
  obtain ⟨rfl, hcommand⟩ := liveRun_commandFor h hs hproc
  obtain ⟨hlock, hsees⟩ := liveRun_locked h hs hproc (by simp)
  have hlt : i < w.sessions.length := (List.getElem?_eq_some_iff.mp hs).1
  simp only [Program.worldStep, hs] at hstep
  cases ho : (liveProgram policy).outcome w.db s input with
  | none => rw [ho] at hstep; cases hstep
  | some o =>
      rw [ho] at hstep
      rcases check_step ho hproc with rfl | ⟨q, hcheck, rfl⟩
      · obtain rfl := Option.some.inj hstep
        exact ⟨rfl, .fresh .failed, by simp [hlt], trivial, fun _ => .failed rfl⟩
      · dsimp only at hstep
        rw [Program.Simulates.perform_nil] at hstep
        obtain rfl := Option.some.inj hstep
        refine ⟨rfl, _, List.getElem?_set_self hlt, ?_⟩
        obtain ⟨c, hget, hcases⟩ := executeCheck_spec hcheck
        obtain ⟨hkey, hexpires⟩ := hcommand 0 c hget
        have hexists : checkTerminalEventExistsBefore
            ((liveProgram policy).reads w.db s 2) c.paymentAttemptId (tEval e) = true := by
          obtain ⟨e', he', hterminal, hat⟩ := hread
          rw [checkTerminalEventExistsBefore, List.any_eq_true]
          exact ⟨e', he', by simp [hkey, hterminal, hat]⟩
        rcases hcases with ⟨hstatus, rfl⟩ | ⟨-, hexpired, -⟩ | ⟨hpending, -, -, rfl⟩ |
          ⟨-, -, hnone, -⟩
        · refine ⟨trivial, ?_⟩
          rintro ⟨c', hget', hpending⟩
          obtain rfl : c' = c := Option.some.inj (hget'.symm.trans hget)
          exact absurd hpending hstatus
        · exact absurd hexpired (not_le.mpr hexpires)
        · have hview : c ∈ ((liveProgram policy).view w.db (s.wrote [] (.trigger e ref
              (.execute id (tEval e) (.close .notNeeded barredReason))))).commands := by
            rw [view_wrote]
            exact hsees 0 c hget
          refine ⟨trivial, fun _ => .closing rfl hlock hview ?_ hpending⟩
          simpa using List.find?_some hget
        · exact absurd (hexists.symm.trans hnone) (by simp)

end Barrier

/-- When a trigger event's run checks for terminal events, and one of the attempt that was
ingested by the run's evaluation time has been committed, the run does not call the executor;
and a command the check finds pending ends `NOT_NEEDED` when the run finishes. -/
theorem executor_not_called {policy : InterventionPolicy} {as₁ as₂ : List LiveAction}
    {w₁ w : LiveWorld} {i : ℕ} {s : LiveSession} {e : PaymentEvent} {ref : AttemptRef}
    {id : CommandId} {t : Time} {input : LiveInput} (h₁ : liveRun policy as₁ = some w₁)
    (hs : w₁.sessions[i]? = some s) (hproc : s.proc = .trigger e ref (.execute id t .check))
    (hread : ∃ e' ∈ ((liveProgram policy).reads w₁.db s 2).events,
      isTerminalOf ref.paymentAttemptId e' = true ∧ e'.ingestedAt ≤ tEval e)
    (h : liveRun policy (as₁ ++ .advance i input :: as₂) = some w) :
    (∀ cmd, (i, cmd) ∉ w.calls) ∧
      ((∃ c, ((liveProgram policy).reads w₁.db s 0).getCommandById id = some c ∧
          c.commandStatus = .pending) →
        (∃ s', w.sessions[i]? = some s' ∧ s'.proc = .finished) →
        ∃ c ∈ w.db.commands, c.commandId = id ∧ c.commandStatus = .notNeeded) := by
  have hrest : Run.exec (liveProgram policy).worldStep w₁ (.advance i input :: as₂) = some w := by
    rw [liveRun, Run.exec_append_of_eq h₁] at h
    exact h
  obtain ⟨w₂, hstep, hrest⟩ := Option.bind_eq_some_iff.mp hrest
  have h₂ : liveRun policy (as₁ ++ [.advance i input]) = some w₂ := by
    rw [liveRun, Run.exec_append_of_eq h₁]
    simpa using hstep
  obtain ⟨hcalls, s₂, hs₂, hbarred, hclosing⟩ := check_bars h₁ hs hproc hread hstep
  have hconnected := liveRun_connected h₂
  refine ⟨fun cmd hcall => ?_, fun hpending hfinished => ?_⟩
  · -- no call up to the check, and none after it
    have hnone : (i, cmd) ∉ w₁.calls := by
      intro hmem
      obtain ⟨s', hs', hspent⟩ := (spent_spends policy).exec h₁ i cmd hmem
      obtain rfl : s' = s := Option.some.inj (hs'.symm.trans hs)
      rw [hproc] at hspent
      exact hspent
    have hbefore := (barred_closed policy).carried.calls (fun u a u' => Connected.step)
      (fun u => Connected.good) (fun {db s input effect next} hstage ho => by
        rcases barred_step ho hstage with ⟨_, _, heq, -⟩ | ⟨-, heq⟩ <;> cases heq)
      hconnected hs₂ hbarred hrest cmd hcall
    exact hnone (hcalls ▸ hbefore)
  · obtain ⟨s', hs', hdone⟩ := hfinished
    obtain ⟨s'', hs'', hend⟩ := (closing_carried policy id).exec (fun u a u' => Connected.step)
      (fun u => Connected.good) hconnected hs₂ (hclosing hpending) hrest
    obtain rfl : s'' = s' := Option.some.inj (hs''.symm.trans hs')
    cases hend with
    | closing hp => rw [hdone] at hp; cases hp
    | closed _ hne => exact absurd hdone hne
    | ended _ _ hc hid hstatus => exact ⟨_, hc, hid, hstatus⟩
    | failed hp => rw [hdone] at hp; cases hp

namespace BarrierExample

open LedgerExample

/-- The authorization is ingested after the outage. -/
def t₁ : Time := t₀ + Time.minutes 16

/-- The authorization, and its run up to the check. -/
def authorize : List LiveAction :=
  .arrive { payment 1153 pipelineTriggerEventType t₁ with paymentId := "pay_1" } ::
    advances 153 14 t₁

/-- A capture that is ingested so many seconds later. -/
def captureAfter (seconds : ℤ) : List LiveAction :=
  [.arrive { payment 1154 capturedEventType (t₁ + Time.seconds seconds) with
    paymentId := "pay_1" }]

/-- The step of the check. -/
def check : LiveAction :=
  .advance 153 { now := t₁
                 result := some ⟨.success, "SIMULATOR_V1", true,
                   routeActionType .retrySecondaryGateway, some "SIMULATED_ACK", none, 15⟩ }

/-- A run up to the check, after the capture has been committed. -/
def upToCheck (seconds : ℤ) : List LiveAction := outage ++ authorize ++ captureAfter seconds

def execDefault (w : LiveWorld) (as : List LiveAction) : Option LiveWorld :=
  Run.exec (liveProgram getDefaultPolicy).worldStep w as

/-- What a run at its check is about to execute. -/
def checking (w : LiveWorld) (i : ℕ) :
    Option (LiveSession × PaymentEvent × AttemptRef × CommandId × Time) :=
  match w.sessions[i]? with
  | none => none
  | some s =>
      match s.proc with
      | .trigger e ref (.execute id t .check) => some (s, e, ref, id, t)
      | _ => none

theorem checking_eq_some {w : LiveWorld} {i : ℕ} {s : LiveSession} {e : PaymentEvent}
    {ref : AttemptRef} {id : CommandId} {t : Time} (h : checking w i = some (s, e, ref, id, t)) :
    w.sessions[i]? = some s ∧ s.proc = .trigger e ref (.execute id t .check) := by
  unfold checking at h
  split at h
  · cases h
  · rename_i s' hs
    split at h
    · rename_i hproc
      cases h
      exact ⟨hs, hproc⟩
    · cases h

/-- The worlds before and after the check, with a capture that is ingested at the evaluation
time, and with a later one. -/
def worlds : Option ((LiveWorld × LiveWorld) × LiveWorld × LiveWorld) := do
  let w₀ ← afterOutage
  let w ← execDefault w₀ authorize
  let u ← execDefault w (captureAfter 0)
  let u' ← execDefault u (check :: advances 153 4 t₁)
  let v ← execDefault w (captureAfter 200)
  let v' ← execDefault v (check :: advances 153 7 t₁)
  return ((u, u'), v, v')

/-- The terminal event of the attempt that the check reads. -/
def readsTerminal (w : LiveWorld) (s : LiveSession) (ref : AttemptRef) (p : PaymentEvent → Bool) :
    Bool :=
  ((liveProgram getDefaultPolicy).reads w.db s 2).events.any fun e' =>
    isTerminalOf ref.paymentAttemptId e' && p e'

theorem worlds_facts : (worlds.map fun ((u, u'), v, v') =>
    ((checking u 153).any fun (s, e, ref, id, _) =>
      readsTerminal u s ref (fun e' => e'.ingestedAt ≤ tEval e) &&
        (((liveProgram getDefaultPolicy).reads u.db s 0).getCommandById id).any
          (·.commandStatus = .pending)) &&
    (u'.sessions[153]?).any (·.proc = .finished) &&
    ((checking v 153).any fun (s, _, ref, _, _) => readsTerminal v s ref (fun _ => true)) &&
    v'.calls.any (·.1 = 153)) = some true := by
  rw [worlds, afterOutage_world]
  decide +kernel

/-- The runs, and what holds at their checks and ends. -/
theorem runs : ∃ u u' v v',
    (liveRun getDefaultPolicy (upToCheck 0) = some u ∧
      liveRun getDefaultPolicy (upToCheck 0 ++ check :: advances 153 4 t₁) = some u') ∧
    (liveRun getDefaultPolicy (upToCheck 200) = some v ∧
      liveRun getDefaultPolicy (upToCheck 200 ++ check :: advances 153 7 t₁) = some v') ∧
    ((checking u 153).any fun (s, e, ref, id, _) =>
      readsTerminal u s ref (fun e' => e'.ingestedAt ≤ tEval e) &&
        (((liveProgram getDefaultPolicy).reads u.db s 0).getCommandById id).any
          (·.commandStatus = .pending)) = true ∧
    (u'.sessions[153]?).any (·.proc = .finished) = true ∧
    ((checking v 153).any fun (s, _, ref, _, _) => readsTerminal v s ref (fun _ => true)) =
      true ∧
    v'.calls.any (·.1 = 153) = true := by
  obtain ⟨⟨⟨u, u'⟩, v, v'⟩, hworlds, hfacts⟩ := Option.map_eq_some_iff.mp worlds_facts
  simp only [worlds, Option.bind_eq_bind, Option.bind_eq_some_iff, Option.pure_def,
    Option.some.injEq, Prod.mk.injEq] at hworlds
  obtain ⟨w₀, hw₀, w, hw, u₁, hu, u₂, hu', v₁, hv, v₂, hv', ⟨rfl, rfl⟩, rfl, rfl⟩ := hworlds
  have houtage := (Run.execGuarded_eq_some.mp (afterOutage_eq hw₀)).2
  have hcheck : ∀ {seconds x}, execDefault w (captureAfter seconds) = some x →
      liveRun getDefaultPolicy (upToCheck seconds) = some x := by
    intro seconds x hx
    rw [liveRun, upToCheck, List.append_assoc, Run.exec_append_of_eq houtage,
      Run.exec_append_of_eq hw, ← hx, execDefault]
  have hend : ∀ {seconds x y as}, execDefault w (captureAfter seconds) = some x →
      execDefault x as = some y → liveRun getDefaultPolicy (upToCheck seconds ++ as) = some y := by
    intro seconds x y as hx hy
    rw [liveRun, Run.exec_append_of_eq (hcheck hx), ← hy, execDefault]
  simp only [Bool.and_eq_true, and_assoc] at hfacts
  exact ⟨_, _, _, _, ⟨hcheck hu, hend hu hu'⟩, ⟨hcheck hv, hend hv hv'⟩, hfacts⟩

end BarrierExample

open BarrierExample LedgerExample in
theorem executor_not_called_capture : ∃ w,
    liveRun getDefaultPolicy (upToCheck 0 ++ check :: advances 153 4 t₁) = some w ∧
      (∀ cmd, (153, cmd) ∉ w.calls) ∧ ∃ c ∈ w.db.commands, c.commandStatus = .notNeeded := by
  obtain ⟨u, u', -, -, ⟨hu, hu'⟩, -, hread, hfinished, -⟩ := runs
  obtain ⟨⟨s, e, ref, id, t⟩, hchecking, hfacts⟩ := (Option.any_eq_true _ _).mp hread
  obtain ⟨hs, hproc⟩ := checking_eq_some hchecking
  obtain ⟨hterminal, hpending⟩ := Bool.and_eq_true_iff.mp hfacts
  obtain ⟨e', he', hmatch⟩ := List.any_eq_true.mp hterminal
  obtain ⟨hof, hat⟩ := Bool.and_eq_true_iff.mp hmatch
  obtain ⟨c, hc, hstatus⟩ := (Option.any_eq_true _ _).mp hpending
  obtain ⟨s', hs', hdone⟩ := (Option.any_eq_true _ _).mp hfinished
  obtain ⟨hcalls, hcommand⟩ :=
    executor_not_called hu hs hproc ⟨e', he', hof, of_decide_eq_true hat⟩ hu'
  obtain ⟨c', hc', -, hnotNeeded⟩ := hcommand ⟨c, hc, of_decide_eq_true hstatus⟩
    ⟨s', hs', of_decide_eq_true hdone⟩
  exact ⟨u', hu', hcalls, c', hc', hnotNeeded⟩

open BarrierExample LedgerExample in
/-- A capture that was committed before the check, but ingested after the evaluation time, does
not keep the run from the executor. -/
theorem executor_called : ∃ w₁ w s e ref id t cmd,
    liveRun getDefaultPolicy (upToCheck 200) = some w₁ ∧ w₁.sessions[153]? = some s ∧
      s.proc = .trigger e ref (.execute id t .check) ∧
      (∃ e' ∈ ((liveProgram getDefaultPolicy).reads w₁.db s 2).events,
        isTerminalOf ref.paymentAttemptId e' = true) ∧
      liveRun getDefaultPolicy (upToCheck 200 ++ check :: advances 153 7 t₁) = some w ∧
      (153, cmd) ∈ w.calls := by
  obtain ⟨-, -, v, v', -, ⟨hv, hv'⟩, -, -, hread, hcall⟩ := runs
  obtain ⟨⟨s, e, ref, id, t⟩, hchecking, hterminal⟩ := (Option.any_eq_true _ _).mp hread
  obtain ⟨hs, hproc⟩ := checking_eq_some hchecking
  obtain ⟨e', he', hmatch⟩ := List.any_eq_true.mp hterminal
  obtain ⟨⟨i, cmd⟩, hmem, hi⟩ := List.any_eq_true.mp hcall
  obtain rfl : i = 153 := of_decide_eq_true hi
  exact ⟨v, v', s, e, ref, id, t, cmd, hv, hs, hproc,
    ⟨e', he', (Bool.and_eq_true_iff.mp hmatch).1⟩, hv', hmem⟩

end RevenueRecovery
