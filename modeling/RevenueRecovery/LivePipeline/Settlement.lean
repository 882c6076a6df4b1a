import RevenueRecovery.Attribution.Log
import RevenueRecovery.Execution.ObservationLog
import RevenueRecovery.LivePipeline.Barrier

/-!
# The settlement of commands

A terminal event's run settles the commands it finds: it observes each and attributes it,
and commits all of it at its end. A command that is committed after the runs of all its
attempt's terminal events is settled by none of them (`unsettled`). A run that finishes has
settled every command it found, by the first terminal outcome it could see
(`settled_of_finished`).

## Main definitions
* `byObservation` : an attribution's outcome is that of the observation as of its time.
* `Progress` : how far a run is with a command.
* `FirstTerminalOf` : the first terminal events of a command's attempt.
-/
namespace RevenueRecovery

open Transaction

/-! ## Terminal events -/

theorem candidateRole_terminal {e : PaymentEvent} {key : String}
    (h : candidateRole e = some (.terminal, key)) :
    e.isTerminal = true ∧ if e.isPaypal then
      ∃ orderId, e.orderId = some orderId ∧ orderId ≠ "" ∧ key = paypalAttemptId orderId
    else key = e.paymentId := by
  unfold candidateRole at h
  split_ifs at h ⊢ with hpaypal hevent hterminal hevent hterminal
  · cases h
  · split at h
    · rename_i orderId horder
      split_ifs at h with hne
      cases h
      exact ⟨hterminal, orderId, horder, hne, rfl⟩
    · cases h
  · cases h
  · cases h
    exact ⟨hterminal, rfl⟩

/-- An event that resolves to the terminal role is a terminal event of its attempt. -/
theorem isTerminalFrom_of_resolve {e : PaymentEvent} {ref : AttemptRef}
    (h : resolvePipelineAttempt e = some ⟨.terminal, ref⟩) :
    isTerminalFrom ref.sourceSystem ref.paymentAttemptId e = true := by
  obtain ⟨hcandidate, hsource, -⟩ := resolvePipelineAttempt_spec h
  obtain ⟨hterminal, hkey⟩ := candidateRole_terminal hcandidate
  dsimp only at hsource hkey
  have hpaypal : e.isPaypal = true ↔ ref.sourceSystem = paypalSourceSystem := by
    rw [hsource]
    exact beq_iff_eq
  unfold isTerminalFrom
  by_cases hs : ref.sourceSystem = paypalSourceSystem
  · rw [if_pos (hpaypal.mpr hs)] at hkey
    obtain ⟨orderId, horder, hne, hkey⟩ := hkey
    rw [if_pos hs, hkey, paypalOrderId_paypalAttemptId hne]
    simp [isPaypalTerminal, hpaypal.mpr hs, hterminal, horder]
  · rw [if_neg (fun h => hs (hpaypal.mp h))] at hkey
    rw [if_neg hs]
    simp [hkey, hterminal, hsource]

/-! ## The runs and their events -/

/-- The event a run is for. -/
def LiveProc.event? : LiveProc → Option PaymentEvent
  | .analytics e | .analyticsStored e | .start e | .registered e _ | .trigger e _ _
  | .settle e _ | .settling e _ _ _ _ => some e
  | .finish | .finished | .failed => none

section Events
variable {policy : InterventionPolicy} {db : Database} {s : LiveSession} {input : LiveInput}
  {o : LiveOutcome} {e : PaymentEvent}

/-- A run goes on for its own event. -/
theorem liveStepped_event (h : LiveStepped policy db s input o) (hnext : o.next.event? = some e) :
    s.proc.event? = some e := by
  cases h with
  | failed => cases hnext
  | analytics hproc | analyticsStored hproc | noAttempt hproc | register hproc | readCommands hproc
  | registered hproc | conflict hproc | settleNil hproc | settleCons hproc | finish hproc =>
      rw [hproc]
      first | exact hnext | cases hnext
  | @triggerReturned e' ref result hproc =>
      rw [hproc]
      cases result with
      | prediction p =>
          simp only [Outcome.next, afterTriggerCall] at hnext
          split at hnext
          · exact hnext
          · cases hnext
      | decision d =>
          simp only [Outcome.next, afterTriggerCall] at hnext
          split at hnext
          · exact hnext
          · cases hnext
      | command c => exact hnext
      | _ => cases hnext
  | @settlingReturned e' id asOf queue result hproc =>
      rw [hproc]
      cases result <;> exact hnext
  | @called p f o' hproc =>
      cases hp : s.proc <;> rw [hp] at hproc <;> cases hproc <;> cases o' <;> exact hnext

/-- The event of every run is stored. -/
theorem liveProgram_ingested (policy : InterventionPolicy) :
    (liveProgram policy).Invariant (fun _ _ _ => True) (fun _ => True) fun db s =>
      ∀ e, s.proc.event? = some e → e ∈ db.events where
  arrive {db e ws ps} _ harr _ := by
    obtain ⟨rfl, rfl⟩ := liveProgram_arrive harr
    refine ⟨trivial, fun s hs _ e' he' => List.mem_append_left _ (hs e' he'), fun p hp e' he' => ?_⟩
    have hown : p.event? = some e := by
      rcases pipelineRuns_cases hp with ⟨-, rfl⟩ | ⟨-, rfl⟩ <;> rfl
    obtain rfl : e = e' := Option.some.inj (hown.symm.trans he')
    exact List.mem_append_right _ (List.mem_singleton_self e)
  look _ h := h
  abort {db s} _ _ e he := by
    cases hp : s.proc <;> rw [hp] at he <;> cases he
  lock _ h _ ho e he := h e (liveStepped_event (liveStepped ho) he)
  write _ h _ ho _ e he := h e (liveStepped_event (liveStepped ho) he)
  call _ h _ ho e he := h e (liveStepped_event (liveStepped ho) he)
  rollback _ h _ ho e he := h e (liveStepped_event (liveStepped ho) he)
  commit {db s input next} _ h _ ho :=
    ⟨trivial, fun e he => (Keeps.foldl db s.pending).events
      (h e (liveStepped_event (liveStepped ho) he)),
      fun t ht _ e he => (Keeps.foldl db s.pending).events (ht e he)⟩

/-- Runs observe commands under the next version. -/
theorem liveProgram_observes (policy : InterventionPolicy) :
    ObservesByVersion (liveProgram policy) where
  apply := rfl
  violates := rfl
  clashes := rfl
  arrive {db x ws ps} harr := by
    obtain ⟨rfl, -⟩ := liveProgram_arrive harr
    rfl
  write {db s input ws next} h := by
    generalize ho : Outcome.write ws next = o at h
    cases liveStepped h with
    | @called p f o' hproc hp hcall =>
        cases o' with
        | write vs next' =>
            obtain ⟨rfl, -⟩ := Outcome.write.inj ho
            rcases hcall.observations with hnone | ⟨id, asOf, row, rfl, rfl, hobs⟩
            · exact .inl hnone
            · obtain ⟨hid, -, -, hversion⟩ := observe_commandId hobs
              exact .inr ⟨row, 3, rfl, by rw [hid]; exact hversion⟩
        | _ => cases ho
    | failed | analyticsStored | finish => cases ho
    | _ => cases ho; exact .inl rfl

end Events

/-! ## Attributions and their observations -/

/-- An attribution's outcome is that of the command's observation as of the same time. -/
def ByObservation (db : Database) : Write → Prop
  | .appendAttribution a => ∃ o ∈ db.observations, o.commandId = a.commandId ∧
      o.asOfTimestamp = a.asOfTimestamp ∧ a.observedPaymentOutcome = o.paymentOutcome
  | _ => True

def byObservation : Justification where
  holds := ByObservation
  lasting {db db' w} hkeeps h := by
    cases w with
    | appendAttribution a =>
        obtain ⟨o, ho, hrest⟩ := h
        exact ⟨o, hkeeps.observations ho, hrest⟩
    | _ => exact trivial

/-- The last observation that the writes insert is of the command, as of the time. -/
def LastObserved (ws : List Write) (id : CommandId) (asOf : Time) : Prop :=
  ∃ o, (ws.filterMap Write.observation?).getLast? = some o ∧ o.commandId = id ∧
    o.asOfTimestamp = asOf

/-- What a terminal event's run knows of the command it is settling. A trigger event's run
settles none. -/
def SettlementKnows (db : Database) (ws : List Write) : LiveProc → Prop
  | .trigger _ _ p => ¬ p.settles
  | .settling _ id asOf _ p =>
      match p with
      | .observe id' asOf' => id' = id ∧ asOf' = asOf
      | .attributePayment id' asOf' | .attributeLocked id' asOf' =>
          (id' = id ∧ asOf' = asOf) ∧ LastObserved ws id asOf
      | .returned (.observation _) => LastObserved ws id asOf
      | .returned (.attribution a) =>
          a ∈ db.attributions ∧ a.commandId = id ∧ a.asOfTimestamp = asOf
      | _ => False
  | _ => True

/-- What a session reads is numbered, and shows its own rows. -/
structure ReadsOwn (policy : InterventionPolicy) (db : Database) (s : LiveSession) : Prop where
  numbered : NumberedSession (liveProgram policy) db s
  own : ∀ v ∈ s.views, ∃ db', v = (liveProgram policy).view db' s

theorem ReadsOwn.reads {policy : InterventionPolicy} {db : Database} {s : LiveSession}
    (h : ReadsOwn policy db s) (k : ℕ) :
    NumberedObservations ((liveProgram policy).reads db s k) ∧
      ∃ db', (liveProgram policy).reads db s k = (liveProgram policy).view db' s := by
  refine ⟨(h.numbered.reads k).2, ?_⟩
  rcases (liveProgram policy).reads_cases db s k with hmem | heq
  · exact h.own _ hmem
  · exact ⟨db, heq⟩

/-- The observation stored last has the highest version. -/
theorem getLatestOutcomeObservation_last {db : Database} {o : PaymentOutcomeObservation}
    (h : NumberedObservations db) (hlast : db.observations.getLast? = some o) :
    getLatestOutcomeObservation db o.commandId o.asOfTimestamp = some o := by
  obtain ⟨init, hinit⟩ := List.getLast?_eq_some_iff.mp hlast
  have hnum := h o.commandId
  unfold observationsOf at hnum
  rw [hinit, List.filter_append, List.filter_cons_of_pos (by simp), List.filter_nil] at hnum
  unfold getLatestOutcomeObservation
  rw [hinit, List.filter_append, List.filter_cons_of_pos (by simp), List.filter_nil]
  refine Table.latestBy_append_max fun b hb => ?_
  obtain ⟨hmem, hmatch⟩ := List.mem_filter.mp hb
  have hof : b ∈ init.filter fun x => x.commandId = o.commandId :=
    List.mem_filter.mpr ⟨hmem, by simpa using (of_decide_eq_true hmatch).1⟩
  rw [hnum.next]
  exact Nat.lt_succ_of_le ((Table.Numbered.append_iff.mp hnum).1.mem_range hof).2

section Calls
variable {policy : InterventionPolicy} {db now : Database} {p next : CallProc}
  {input : CallInput} {reads : ℕ → Database} {e : PaymentEvent} {id : CommandId} {asOf : Time}
  {queue : List (CommandId × Time)} {pending ws : List Write}

/-- A trigger event's run does not come to settle. -/
theorem CallStepped.not_settles {model : FailurePredictionModel} {o : CallOutcome}
    (h : CallStepped model policy input reads now p o) (hp : ¬ p.settles) : ¬ o.next.settles := by
  cases h with
  | @executing id t q o' => cases o' <;> exact fun h => h
  | observed | attributeLock | attributeStored | attributed => exact absurd trivial hp
  | returned => exact hp
  | _ => exact fun h => h

theorem SettlementKnows.mono {db' : Database} {x : LiveProc} (h : SettlementKnows db pending x)
    (hkeeps : Keeps db db') : SettlementKnows db' pending x := by
  cases x with
  | settling e id asOf queue p =>
      cases p with
      | returned result =>
          cases result with
          | attribution a => exact ⟨hkeeps.attributions h.1, h.2⟩
          | _ => exact h
      | _ => exact h
  | _ => exact h

/-- A settling call attributes by the observation the run has made. -/
theorem CallStepped.settlementKnows {model : FailurePredictionModel}
    (h : CallStepped model policy input reads now p (.write ws next))
    (hknows : SettlementKnows db pending (.settling e id asOf queue p))
    (hreads : ∀ k, Keeps (reads k) db)
    (hown : ∀ k, NumberedObservations (reads k) ∧
      ∃ db', reads k = pending.foldl Database.apply db')
    (hpending : ∀ o, .insertObservation o ∈ pending → o ∈ db.observations) :
    (∀ w ∈ ws, ByObservation (ws.foldl Database.apply db) w) ∧
      SettlementKnows (ws.foldl Database.apply db) (pending ++ ws)
        (.settling e id asOf queue next) := by
  generalize ho : Outcome.write ws next = o at h
  cases h with
  | @observed id' asOf' row hobs =>
      cases ho
      obtain ⟨rfl, rfl⟩ := hknows
      obtain ⟨hid, hasOf, -⟩ := observe_commandId hobs
      exact ⟨by simp [ByObservation], row, by simp [Write.observation?], hid, hasOf⟩
  | @attributeStored id' asOf' a hres =>
      cases ho
      obtain ⟨⟨rfl, rfl⟩, -⟩ := hknows
      obtain ⟨hof, hasOf⟩ := attributePaymentIntervention_stored hres
      obtain ⟨hmem, hid⟩ : a ∈ (reads 0).attributions ∧ a.commandId = id' := by
        simpa [Database.attributionsOf] using hof
      exact ⟨by simp, (hreads 0).attributions hmem, hid, hasOf⟩
  | @attributed id' asOf' a hres =>
      cases ho
      obtain ⟨⟨rfl, rfl⟩, o, hlast, rfl, rfl⟩ := hknows
      obtain ⟨hid, hasOf, -⟩ := attributePaymentIntervention_new hres
      obtain ⟨u, hu, -, ha⟩ := attributePaymentIntervention_spec hres
      refine ⟨?_, List.mem_append_right _ (List.mem_singleton_self a), hid, hasOf⟩
      rw [List.forall_mem_singleton]
      have hstored : o ∈ db.observations :=
        hpending o (mem_filterMap_observation?.mp (List.mem_of_getLast? hlast))
      refine ⟨o, hstored, hid.symm, hasOf.symm, ?_⟩
      obtain ⟨hnum, db', hdb'⟩ := hown 6
      have hread : getLatestOutcomeObservation (reads 6) o.commandId o.asOfTimestamp = some o := by
        refine getLatestOutcomeObservation_last hnum ?_
        rw [hdb', Database.observations_foldl, List.getLast?_append, hlast, Option.some_or]
      have hobs : u.observation = some o := (readUpstream_spec hu).2.2.1.trans hread
      rw [ha]
      simp [Upstream.newAttribution, Upstream.observedOutcome, hobs]
  | @returned result =>
      cases ho
      exact ⟨by simp, by simpa using hknows⟩
  | _ => first | exact absurd hknows (fun h => h) | cases ho

/-- A settling call that writes nothing goes on with what it knew. -/
theorem CallStepped.settling {model : FailurePredictionModel} {o : CallOutcome}
    (h : CallStepped model policy input reads now p o)
    (hknows : SettlementKnows db pending (.settling e id asOf queue p))
    (hwrite : ∀ ws q, o ≠ .write ws q) :
    SettlementKnows db pending (.settling e id asOf queue o.next) := by
  cases h with
  | attributeLock => exact hknows
  | observed | attributeStored | attributed | returned => exact absurd rfl (hwrite _ _)
  | _ => exact absurd hknows fun h => h

/-- A session sees the observations it has yet to commit. -/
theorem mem_observations_view {s : LiveSession} {o : PaymentOutcomeObservation}
    (h : .insertObservation o ∈ s.pending) :
    o ∈ ((liveProgram policy).view db s).observations := by
  rw [liveProgram_view, Database.observations_foldl]
  exact List.mem_append_right _ (mem_filterMap_observation?.mpr h)

/-- Runs attribute by the observations they have made, and know which these are. -/
theorem liveProgram_byObservation (policy : InterventionPolicy) :
    byObservation.Informed (liveProgram policy) (fun db s _ => ReadsOwn policy db s)
      SettlementKnows where
  apply := rfl
  lasting hkeeps h := h.mono hkeeps
  arrive {db e ws ps} harr := by
    obtain ⟨rfl, rfl⟩ := liveProgram_arrive harr
    refine ⟨by simp [byObservation, ByObservation], fun p hp db' => ?_⟩
    rcases pipelineRuns_cases hp with ⟨-, rfl⟩ | ⟨-, rfl⟩ <;> trivial
  error db p := by cases p <;> trivial
  step {db s input o} hrows hreads hknows hown ho := by
    cases liveStepped ho with
    | @called p f o' hproc hp hcall =>
        generalize hx : s.proc = x at hproc hknows
        cases x with
        | trigger e ref q =>
            cases hproc
            have hnext := hcall.not_settles hknows
            cases o' with
            | write ws next =>
                refine ⟨fun w hw => ?_, hnext⟩
                have horigin := hcall.origin hw
                cases w with
                | appendAttribution a =>
                    obtain ⟨id, asOf, rfl, -⟩ := horigin
                    exact absurd trivial hknows
                | _ => trivial
            | lock | call => exact hnext
            | commit next => exact absurd rfl (hcall.inside.1 next)
            | rollback next => exact absurd rfl (hcall.inside.2 next)
        | settling e id asOf queue q =>
            cases hproc
            cases o' with
            | write ws next =>
                simp only [Outcome.map, view_wrote]
                exact hcall.settlementKnows hknows hreads hown.reads fun o ho =>
                  mem_observations_view ho
            | lock | call => exact hcall.settling hknows (by simp)
            | commit next => exact absurd rfl (hcall.inside.1 next)
            | rollback next => exact absurd rfl (hcall.inside.2 next)
        | _ => cases hproc
    | @triggerReturned e ref result hproc =>
        rw [hproc] at hknows
        refine ⟨by simp, ?_⟩
        cases result with
        | prediction q => simp only [afterTriggerCall]; split <;> trivial
        | decision d => simp only [afterTriggerCall]; split <;> trivial
        | command c => exact fun h => h
        | _ => trivial
    | @settlingReturned e id asOf queue result hproc =>
        rw [hproc] at hknows
        refine ⟨by simp, ?_⟩
        cases result with
        | observation o =>
            exact ⟨⟨rfl, rfl⟩, (List.append_nil s.pending).symm ▸ hknows⟩
        | _ => trivial
    | failed => exact fun _ => trivial
    | analyticsStored => exact fun _ => trivial
    | finish => exact fun _ => trivial
    | registered => exact ⟨by simp, fun h => h⟩
    | settleCons => exact ⟨by simp, rfl, rfl⟩
    | _ => exact ⟨by simp [byObservation, ByObservation], trivial⟩

end Calls

/-! ## The progress of a command -/

/-- What a step writes. -/
def writesOf : LiveOutcome → List Write
  | .write ws _ => ws
  | _ => []

/-- The commands a run has yet to come to. -/
def LiveProc.queue : LiveProc → List (CommandId × Time)
  | .settle _ queue | .settling _ _ _ queue _ => queue
  | _ => []

/-- The outcome of a terminal event of the command's attempt that was ingested by `t`. -/
def OutcomeBy (db : Database) (c : InterventionCommand) (t : Time) (outcome : PaymentOutcome) :
    Prop :=
  ∃ e ∈ db.events, isTerminalFrom c.sourceSystem c.paymentAttemptId e = true ∧
    e.ingestedAt ≤ t ∧ outcome = eventOutcome e

/-- The command is observed as of the time, with such an outcome. -/
def ObservedBy (db : Database) (c : InterventionCommand) (t asOf : Time) : Prop :=
  ∃ o ∈ db.observations, o.commandId = c.commandId ∧ o.asOfTimestamp = asOf ∧
    OutcomeBy db c t o.paymentOutcome

/-- How far a terminal event's run is with a command it has found: it has yet to come to it,
is about to observe it, has observed it, or has attributed it. -/
inductive Progress (c : InterventionCommand) (t : Time) (db : Database) (p : LiveProc) : Prop
  | queued {asOf} (hqueue : (c.commandId, asOf) ∈ p.queue) (hle : t ≤ asOf)
  | observing {e asOf queue}
      (hproc : p = .settling e c.commandId asOf queue (.observe c.commandId asOf)) (hle : t ≤ asOf)
  | observed {e asOf queue q} (hproc : p = .settling e c.commandId asOf queue q)
      (hobs : ObservedBy db c t asOf)
  | attributed {asOf a} (hobs : ObservedBy db c t asOf) (ha : a ∈ db.attributions)
      (hid : a.commandId = c.commandId) (hasOf : a.asOfTimestamp = asOf)

section Progress
variable {policy : InterventionPolicy} {db db' : Database} {s : LiveSession} {input : LiveInput}
  {o : LiveOutcome} {c : InterventionCommand} {t asOf : Time} {p : LiveProc} {first : PaymentEvent}

theorem ObservedBy.mono (h : ObservedBy db c t asOf) (hkeeps : Keeps db db') :
    ObservedBy db' c t asOf := by
  obtain ⟨o, ho, hid, hasOf, e, he, hrest⟩ := h
  exact ⟨o, hkeeps.observations ho, hid, hasOf, e, hkeeps.events he, hrest⟩

theorem Progress.mono (h : Progress c t db p) (hkeeps : Keeps db db') : Progress c t db' p := by
  cases h with
  | queued hqueue hle => exact .queued hqueue hle
  | observing hproc hle => exact .observing hproc hle
  | observed hproc hobs => exact .observed hproc (hobs.mono hkeeps)
  | attributed hobs ha hid hasOf =>
      exact .attributed (hobs.mono hkeeps) (hkeeps.attributions ha) hid hasOf

/-- An observation that reads a terminal event reports one that was ingested no later. -/
theorem observe_first {r : Reads} {id : CommandId} {o : PaymentOutcomeObservation}
    {cmd : InterventionCommand} (h : observe r id asOf = .ok o)
    (hget : (r.db 0).getCommandById id = some cmd) (he : first ∈ (r.db 2).events)
    (hterminal : isTerminalFrom cmd.sourceSystem cmd.paymentAttemptId first = true)
    (hat : first.ingestedAt ≤ asOf) :
    OutcomeBy (r.db 2) cmd first.ingestedAt o.paymentOutcome := by
  obtain ⟨cmd', row, hget', -, rfl⟩ := observe_spec h
  obtain rfl : cmd' = cmd := Option.some.inj (hget'.symm.trans hget)
  have hmem : first ∈ getCanonicalTerminalEvents (r.shift 2) 0 cmd'.sourceSystem
      cmd'.paymentAttemptId asOf := mem_getCanonicalTerminalEvents.mpr ⟨he, hterminal, hat⟩
  cases hevents : getCanonicalTerminalEvents (r.shift 2) 0 cmd'.sourceSystem
      cmd'.paymentAttemptId asOf with
  | nil => rw [hevents] at hmem; exact absurd hmem List.not_mem_nil
  | cons e es =>
      have hself : e ∈ getCanonicalTerminalEvents (r.shift 2) 0 cmd'.sourceSystem
          cmd'.paymentAttemptId asOf := by rw [hevents]; exact List.mem_cons_self
      obtain ⟨hin, hof, -⟩ := mem_getCanonicalTerminalEvents.mp hself
      refine ⟨e, hin, hof, getCanonicalTerminalEvents_head hevents first he hterminal hat, ?_⟩
      simp [newObservation, hevents]

/-- A run that has yet to come to the command comes to it next, or later. -/
theorem Progress.queued_step (hqueue : (c.commandId, asOf) ∈ s.proc.queue) (hle : t ≤ asOf)
    (h : LiveStepped policy db s input o) :
    o = .rollback .failed ∨ Progress c t db' o.next := by
  have hnone : s.proc.queue = [] → o = .rollback .failed ∨ Progress c t db' o.next :=
    fun hnil => absurd hqueue (by rw [hnil]; exact List.not_mem_nil)
  cases h with
  | failed => exact .inl rfl
  | @settleCons e id asOf' queue hproc =>
      rw [hproc] at hqueue
      rcases List.mem_cons.mp hqueue with heq | hmem
      · obtain ⟨rfl, rfl⟩ := Prod.mk.inj heq
        exact .inr (.observing rfl hle)
      · exact .inr (.queued hmem hle)
  | @settlingReturned e id asOf' queue result hproc =>
      rw [hproc] at hqueue
      cases result <;> exact .inr (.queued hqueue hle)
  | @called p f o' hproc =>
      cases hp : s.proc with
      | settling e id asOf' queue q =>
          rw [hp] at hproc hqueue
          cases hproc
          cases o' <;> exact .inr (.queued hqueue hle)
      | _ => exact hnone (by rw [hp]; first | rfl | (rw [hp] at hproc; cases hproc))
  | analytics hproc | analyticsStored hproc | noAttempt hproc | register hproc | readCommands hproc
  | registered hproc | conflict hproc | triggerReturned hproc | settleNil hproc | finish hproc =>
      exact hnone (by rw [hproc]; rfl)

/-- A run that has observed the command attributes it next. -/
theorem Progress.observed_step {e : PaymentEvent} {queue : List (CommandId × Time)} {q : CallProc}
    (hproc : s.proc = .settling e c.commandId asOf queue q)
    (hobs : ObservedBy ((liveProgram policy).view db s) c t asOf)
    (h : LiveStepped policy db s input o)
    (hknows : SettlementKnows ((liveProgram policy).view db s) s.pending s.proc)
    (hkeeps : Keeps ((liveProgram policy).view db s) db') :
    o = .rollback .failed ∨ Progress c t db' o.next := by
  have hobs' := hobs.mono hkeeps
  rw [hproc] at hknows
  cases h with
  | failed => exact .inl rfl
  | @settlingReturned e' id asOf' queue' result hproc' =>
      cases hproc.symm.trans hproc'
      cases result with
      | observation row => exact .inr (.observed rfl hobs')
      | attribution a =>
          obtain ⟨ha, hid, hasOf⟩ := hknows
          exact .inr (.attributed hobs' (hkeeps.attributions ha) hid hasOf)
      | _ => exact absurd hknows fun h => h
  | @called p f o' hcall =>
      rw [hproc] at hcall
      cases hcall
      cases o' <;> exact .inr (.observed rfl hobs')
  | analytics hproc' | analyticsStored hproc' | noAttempt hproc' | register hproc'
  | readCommands hproc' | registered hproc' | conflict hproc' | triggerReturned hproc'
  | settleNil hproc' | settleCons hproc' | finish hproc' =>
      cases hproc.symm.trans hproc'

/-- What holds of every run: its rows are justified and break no constraint, and it knows
which observations it has made. -/
structure SettlementRows (policy : InterventionPolicy) (db : Database) (s : LiveSession) :
    Prop where
  justified : JustifiedSession (liveProgram policy) byObservation db s
  knows : SettlementKnows ((liveProgram policy).view db s) s.pending s.proc
  free : (liveProgram policy).violatesAny db s.pending = false

/-- The run has found the command, and sees the terminal event. -/
structure Found (policy : InterventionPolicy) (c : InterventionCommand) (first : PaymentEvent)
    (db : Database) (s : LiveSession) : Prop where
  event : first ∈ ((liveProgram policy).view db s).events
  views : ∀ v ∈ s.views, first ∈ v.events
  stored : ∃ c' ∈ ((liveProgram policy).view db s).commands, c.SamePayload c'
  progress : Progress c first.ingestedAt ((liveProgram policy).view db s) s.proc
  finished : s.proc = .finished → s.pending = []

/-- A run about to observe the command does so by an event no later than the one it sees. -/
theorem Found.observing_step {e : PaymentEvent} {queue : List (CommandId × Time)}
    (h : Found policy c first db s)
    (hterminal : isTerminalFrom c.sourceSystem c.paymentAttemptId first = true)
    (hunique : Unique db) (hrows : SettlementRows policy db s)
    (hproc : s.proc = .settling e c.commandId asOf queue (.observe c.commandId asOf))
    (hle : first.ingestedAt ≤ asOf) (ho : LiveStepped policy db s input o) :
    o = .rollback .failed ∨ Progress c first.ingestedAt
      ((writesOf o).foldl Database.apply ((liveProgram policy).view db s)) o.next := by
  have hreads := hrows.justified.reads
  have hseen : ∀ k, first ∈ ((liveProgram policy).reads db s k).events :=
    Program.reads_of_views (A := fun v : Database => first ∈ v.events) h.views h.event
  have hview : Unique ((liveProgram policy).view db s) :=
    (Database.constraints rfl rfl rfl).keep_applyAll hunique hrows.free
  cases ho with
  | failed => exact .inl rfl
  | @called p f o' hcall hp hstep =>
      rw [hproc] at hcall
      cases hcall
      cases hstep with
      | @observed _ _ row hobs =>
          obtain ⟨cmd, -, hget, -, -⟩ := observe_spec hobs
          obtain ⟨hid, hasOf, -⟩ := observe_commandId hobs
          obtain ⟨c', hc', hsame⟩ := h.stored
          obtain ⟨cmd', hcmd', hsame'⟩ := (hreads 0).commands cmd (List.mem_of_find?_eq_some hget)
          have hself : cmd.commandId = c.commandId := by simpa using List.find?_some hget
          obtain rfl : c' = cmd' := hview.command_eq hc' hcmd'
            (.inl (hsame.commandId.trans (hself.symm.trans hsame'.commandId.symm)))
          have hsource : cmd.sourceSystem = c.sourceSystem :=
            hsame'.sourceSystem.symm.trans hsame.sourceSystem
          have hkey : cmd.paymentAttemptId = c.paymentAttemptId :=
            hsame'.paymentAttemptId.symm.trans hsame.paymentAttemptId
          obtain ⟨e', he', hof, hat, hout⟩ := observe_first hobs hget (hseen 2)
            (by rw [hsource, hkey]; exact hterminal) hle
          rw [hsource, hkey] at hof
          refine .inr (.observed rfl ⟨row, ?_, hid, hasOf, e', ?_, hof, hat, hout⟩)
          · exact List.mem_append_right _ (List.mem_singleton_self row)
          · exact (hreads 2).events he'
  | analytics hproc' | analyticsStored hproc' | noAttempt hproc' | register hproc'
  | readCommands hproc' | registered hproc' | conflict hproc' | triggerReturned hproc'
  | settleNil hproc' | settleCons hproc' | settlingReturned hproc' | finish hproc' =>
      cases hproc.symm.trans hproc'

/-- A step of the run carries the progress on. -/
theorem Found.step (h : Found policy c first db s)
    (hterminal : isTerminalFrom c.sourceSystem c.paymentAttemptId first = true)
    (hunique : Unique db) (hrows : SettlementRows policy db s)
    (ho : LiveStepped policy db s input o) :
    o = .rollback .failed ∨ Progress c first.ingestedAt
      ((writesOf o).foldl Database.apply ((liveProgram policy).view db s)) o.next := by
  cases h.progress with
  | queued hqueue hle => exact Progress.queued_step hqueue hle ho
  | observing hproc hle => exact h.observing_step hterminal hunique hrows hproc hle ho
  | observed hproc hobs => exact Progress.observed_step hproc hobs ho hrows.knows (.foldl _ _)
  | attributed hobs ha hid hasOf =>
      have hkeeps := Keeps.foldl ((liveProgram policy).view db s) (writesOf o)
      exact .inr (.attributed (hobs.mono hkeeps) (hkeeps.attributions ha) hid hasOf)

theorem Found.mono (h : Found policy c first db s) (hkeeps : Keeps db db') :
    Found policy c first db' s := by
  have hview := hkeeps.foldl_mono s.pending
  obtain ⟨c', hc', hsame⟩ := h.stored
  obtain ⟨c'', hc'', hsame'⟩ := hview.commands c' hc'
  exact ⟨hview.events h.event, h.views, ⟨c'', hc'', hsame.trans hsame'⟩,
    h.progress.mono hview, h.finished⟩

/-- The run has found the command, or has failed. -/
def FoundOrFailed (policy : InterventionPolicy) (c : InterventionCommand) (first : PaymentEvent)
    (db : Database) (s : LiveSession) : Prop :=
  s.proc = .failed ∨ Found policy c first db s

theorem FoundOrFailed.found (h : FoundOrFailed policy c first db s)
    (ho : (liveProgram policy).outcome db s input = some o) : Found policy c first db s := by
  refine h.resolve_left fun hfailed => ?_
  have hstep : liveStep policy s.proc input ((liveProgram policy).reads db s)
    ((liveProgram policy).view db s) = some o := ho
  rw [hfailed] at hstep
  cases hstep

/-- A run finishes by the commit at its end. -/
theorem finished_next (h : LiveStepped policy db s input o) (hnext : o.next = .finished) :
    o = .commit .finished := by
  cases h with
  | finish => rfl
  | @called p f o' hproc =>
      cases hp : s.proc <;> rw [hp] at hproc <;> cases hproc <;> cases o' <;> cases hnext
  | @triggerReturned e ref result =>
      cases result with
      | prediction p => simp only [Outcome.next, afterTriggerCall] at hnext; split at hnext <;> cases hnext
      | decision d => simp only [Outcome.next, afterTriggerCall] at hnext; split at hnext <;> cases hnext
      | _ => cases hnext
  | @settlingReturned e id asOf queue result => cases result <;> cases hnext
  | _ => cases hnext

/-- A run that is rolled back has failed. -/
theorem rollback_failed {next : LiveProc} (h : LiveStepped policy db s input (.rollback next)) :
    next = .failed := by
  generalize ho : Outcome.rollback next = o at h
  cases h with
  | failed => cases ho; rfl
  | @called p f o' hproc hp hcall =>
      cases o' <;> cases ho
      exact absurd rfl (hcall.inside.2 _)
  | _ => cases ho

/-- A run that goes on in its transaction keeps what it has found. -/
theorem Found.moved (h : Found policy c first db s)
    (hterminal : isTerminalFrom c.sourceSystem c.paymentAttemptId first = true)
    (hunique : Unique db) (hrows : SettlementRows policy db s)
    (ho : LiveStepped policy db s input o) (hkind : ∀ next, o ≠ .rollback next ∧ o ≠ .commit next)
    {s' : LiveSession} (hproc : s'.proc = o.next) (hpending : s'.pending = s.pending ++ writesOf o)
    (hviews : s'.views = []) : Found policy c first db s' := by
  have hview : (liveProgram policy).view db s' =
      (writesOf o).foldl Database.apply ((liveProgram policy).view db s) := by
    rw [liveProgram_view, liveProgram_view, hpending, List.foldl_append]
  have hkeeps : Keeps ((liveProgram policy).view db s) ((liveProgram policy).view db s') :=
    hview ▸ .foldl _ _
  obtain ⟨c', hc', hsame⟩ := h.stored
  obtain ⟨c'', hc'', hsame'⟩ := hkeeps.commands c' hc'
  refine ⟨hkeeps.events h.event, by simp [hviews], ⟨c'', hc'', hsame.trans hsame'⟩, ?_, ?_⟩
  · rw [hproc, hview]
    exact (h.step hterminal hunique hrows ho).resolve_left (hkind _).1
  · rw [hproc]
    exact fun hnext => absurd (finished_next ho hnext) (hkind _).2

theorem found_carried (policy : InterventionPolicy) (c : InterventionCommand)
    (first : PaymentEvent)
    (hterminal : isTerminalFrom c.sourceSystem c.paymentAttemptId first = true) :
    (liveProgram policy).Carried (fun db => Justified byObservation db ∧ Unique db)
      (SettlementRows policy) (FoundOrFailed policy c first) where
  arrive {db e ws ps s} _ _ h harr := by
    obtain ⟨rfl, -⟩ := liveProgram_arrive harr
    exact h.imp_right fun h => h.mono (.foldl db _)
  look {db s} _ _ h := by
    refine h.imp_right fun h => ⟨h.event, fun v hv => ?_, h.stored, h.progress, h.finished⟩
    rcases List.mem_append.mp hv with hv | hv
    · exact h.views v hv
    · obtain rfl := List.mem_singleton.mp hv
      exact h.event
  abort {db s} _ _ h := by
    by_cases hdone : s.proc = .finished
    · have hfound := h.resolve_left (by rw [hdone]; simp)
      have hview : (liveProgram policy).view db s = db := by
        rw [liveProgram_view, hfound.finished hdone, List.foldl_nil]
      obtain ⟨hevent, -, hstored, hprogress, -⟩ := hfound
      rw [hview] at hevent hstored hprogress
      rw [hdone] at hprogress ⊢
      exact .inr ⟨hevent, by simp, hstored, hprogress, fun _ => rfl⟩
    · refine .inl ?_
      change LiveProc.onError s.proc = .failed
      cases hp : s.proc <;> first | rfl | exact absurd hp hdone
  lock hG hL h ho :=
    .inr ((h.found ho).moved hterminal hG.2 hL (liveStepped ho) (by simp) rfl
      (List.append_nil _).symm rfl)
  write hG hL h ho _ :=
    .inr ((h.found ho).moved hterminal hG.2 hL (liveStepped ho) (by simp) rfl rfl rfl)
  call hG hL h ho :=
    .inr ((h.found ho).moved hterminal hG.2 hL (liveStepped ho) (by simp) rfl
      (List.append_nil _).symm rfl)
  rollback _ _ _ ho := .inl (rollback_failed (liveStepped ho))
  commit hG hL h ho := by
    have hfound := h.found ho
    have hprogress := (hfound.step hterminal hG.2 hL (liveStepped ho)).resolve_left (by simp)
    exact .inr ⟨hfound.event, by simp, hfound.stored, hprogress, fun _ => rfl⟩
  other {db s t input next} _ _ h _ _ _ := h.imp_right fun h => h.mono (.foldl db t.pending)

end Progress

/-! ## Runs -/

/-- The first terminal events of the command's attempt: those ingested no later than any. -/
def FirstTerminalOf (db : Database) (c : InterventionCommand) (e : PaymentEvent) : Prop :=
  e ∈ db.events ∧ isTerminalFrom c.sourceSystem c.paymentAttemptId e = true ∧
    ∀ e' ∈ db.events, isTerminalFrom c.sourceSystem c.paymentAttemptId e' = true →
      e.ingestedAt ≤ e'.ingestedAt

instance (db : Database) (c : InterventionCommand) (e : PaymentEvent) :
    Decidable (FirstTerminalOf db c e) :=
  inferInstanceAs (Decidable (_ ∧ _ ∧ _))

/-- What holds of every world the runs reach. -/
structure SettlementWorld (policy : InterventionPolicy) (w : LiveWorld) : Prop where
  rows : (liveProgram policy).Good (fun db => Justified byObservation db ∧ Unique db)
    (fun db s => (JustifiedSession (liveProgram policy) byObservation db s ∧
      SettlementKnows ((liveProgram policy).view db s) s.pending s.proc) ∧
        (liveProgram policy).violatesAny db s.pending = false) w
  own : (liveProgram policy).Good (fun db => NumberedObservations db ∧ True)
    (fun db s => NumberedSession (liveProgram policy) db s ∧
      ∀ v ∈ s.views, ∃ db', v = (liveProgram policy).view db' s) w

section Runs
variable {policy : InterventionPolicy} {as : List LiveAction} {w w' : LiveWorld} {i : ℕ}
  {s : LiveSession} {input : LiveInput} {c : InterventionCommand} {e first : PaymentEvent}
  {ref : AttemptRef}

theorem SettlementWorld.good (h : SettlementWorld policy w) :
    (liveProgram policy).Good (fun db => Justified byObservation db ∧ Unique db)
      (SettlementRows policy) w where
  separated := h.rows.separated
  store := h.rows.store
  session s hs :=
    have ⟨⟨hjustified, hknows⟩, hfree⟩ := h.rows.session s hs
    ⟨hjustified, hknows, hfree⟩

theorem SettlementWorld.step {a : LiveAction} (h : SettlementWorld policy w)
    (hstep : (liveProgram policy).worldStep w a = some w') : SettlementWorld policy w' where
  rows := by
    have hunique : (liveProgram policy).Constraints Write.conflicts Unique :=
      Database.constraints rfl rfl rfl
    refine ((liveProgram_byObservation policy).invariant.and hunique.invariant).step h.rows ?_ hstep
    cases a with
    | advance i input =>
        intro s hs
        obtain ⟨hnumbered, hown⟩ := h.own.session s (List.mem_of_getElem? hs)
        exact ⟨hnumbered, hown⟩
    | _ => trivial
  own := by
    refine ((liveProgram_observes policy).invariant.and
      (Program.ownViews (liveProgram policy) fun _ _ _ => True)).step h.own ?_ hstep
    cases a <;> simp [Program.worldGuard]

theorem liveRun_settlementWorld (h : liveRun policy as = some w) : SettlementWorld policy w :=
  Run.invariant_exec (fun _ _ _ hu hstep => hu.step hstep)
    ⟨.empty ⟨.empty byObservation, .empty⟩, .empty ⟨.empty, trivial⟩⟩ h

/-- A terminal event's run starts with the commands it selects. -/
theorem start_found (h : SettlementWorld policy w) (hs : w.sessions[i]? = some s)
    (hproc : s.proc = .start e) (hrole : resolvePipelineAttempt e = some ⟨.terminal, ref⟩)
    (hc : c ∈ ((liveProgram policy).reads w.db s 0).commands)
    (hkey : c.paymentAttemptId = ref.paymentAttemptId)
    (hfirst : first ∈ ((liveProgram policy).reads w.db s 0).events)
    (hle : first.ingestedAt ≤ e.ingestedAt)
    (hstep : (liveProgram policy).worldStep w (.advance i input) = some w') :
    ∃ s', w'.sessions[i]? = some s' ∧ Found policy c first w'.db s' := by
  have hlt : i < w.sessions.length := (List.getElem?_eq_some_iff.mp hs).1
  have hreads := (h.good.session s (List.mem_of_getElem? hs)).justified.reads 0
  have houtcome : (liveProgram policy).outcome w.db s input = some (.write [] (.settle e
      (settlementQueue (input.toCallInput.reads ((liveProgram policy).reads w.db s)) e
        ref.paymentAttemptId))) := by
    change liveStep policy s.proc input _ _ = _
    rw [hproc]
    simp only [liveStep, hrole]
  simp only [Program.worldStep, hs, houtcome] at hstep
  rw [Program.Simulates.perform_nil] at hstep
  obtain rfl := Option.some.inj hstep
  refine ⟨_, List.getElem?_set_self hlt, ?_⟩
  have hqueue : (c.commandId, max e.ingestedAt c.updatedAt) ∈ settlementQueue
      (input.toCallInput.reads ((liveProgram policy).reads w.db s)) e ref.paymentAttemptId :=
    List.mem_map.mpr ⟨c, Reads.mem_rows.mpr ⟨hc, by simp [hkey]⟩, rfl⟩
  obtain ⟨c', hc', hsame⟩ := hreads.commands c hc
  have hview : ∀ next, (liveProgram policy).view w.db (s.wrote [] next) =
      (liveProgram policy).view w.db s := fun next => by rw [view_wrote, List.foldl_nil]
  refine ⟨?_, by simp [Session.wrote], ⟨c', ?_, hsame⟩, .queued hqueue ?_, by simp [Session.wrote]⟩
  · exact (hview _).symm ▸ hreads.events hfirst
  · exact (hview _).symm ▸ hc'
  · exact le_trans hle (le_max_left _ _)

/-- A finished run that had found the command has settled it. -/
theorem Found.settled (h : Found policy c first w.db s) (hw : SettlementWorld policy w)
    (hdone : s.proc = .finished) :
    (∃ o ∈ w.db.observations, o.commandId = c.commandId) ∧
      ∃ a ∈ w.db.attributions, a.commandId = c.commandId ∧
        OutcomeBy w.db c first.ingestedAt a.observedPaymentOutcome := by
  have hview : (liveProgram policy).view w.db s = w.db := by
    rw [liveProgram_view, h.finished hdone, List.foldl_nil]
  have hprogress := h.progress
  rw [hview] at hprogress
  cases hprogress with
  | queued hqueue => rw [hdone] at hqueue; exact absurd hqueue List.not_mem_nil
  | observing hproc => rw [hdone] at hproc; cases hproc
  | observed hproc => rw [hdone] at hproc; cases hproc
  | @attributed asOf a hobs ha hid hasOf =>
      obtain ⟨o, ho, hoid, hoasOf, hout⟩ := hobs
      obtain ⟨o', ho', hoid', hoasOf', houtcome⟩ := hw.rows.store.1.attributions a ha
      obtain rfl : o' = o := hw.rows.store.2.observation_eq ho' ho
        (hoid'.trans (hid.trans hoid.symm)) (.inr (hoasOf'.trans (hasOf.trans hoasOf.symm)))
      exact ⟨⟨o', ho, hoid⟩, a, ha, hid, houtcome ▸ hout⟩

end Runs

/-- A terminal event's run that finishes has settled every command of its attempt it had
selected: each has an observation, and an attribution whose outcome is the attempt's first
terminal outcome, when the event of that had been committed. -/
theorem settled_of_finished {policy : InterventionPolicy} {as₁ as₂ : List LiveAction}
    {w₁ w : LiveWorld} {i : ℕ} {s : LiveSession} {input : LiveInput} {e : PaymentEvent}
    {ref : AttemptRef} {c : InterventionCommand} (h₁ : liveRun policy as₁ = some w₁)
    (hs : w₁.sessions[i]? = some s) (hproc : s.proc = .start e)
    (hrole : resolvePipelineAttempt e = some ⟨.terminal, ref⟩)
    (hc : c ∈ ((liveProgram policy).reads w₁.db s 0).commands)
    (hsource : c.sourceSystem = ref.sourceSystem)
    (hkey : c.paymentAttemptId = ref.paymentAttemptId)
    (h : liveRun policy (as₁ ++ .advance i input :: as₂) = some w)
    (hfinished : ∃ s', w.sessions[i]? = some s' ∧ s'.proc = .finished)
    (hfirst : ∃ first ∈ ((liveProgram policy).reads w₁.db s 0).events,
      FirstTerminalOf w.db c first) :
    (∃ o ∈ w.db.observations, o.commandId = c.commandId) ∧
      ∃ a ∈ w.db.attributions, a.commandId = c.commandId ∧
        ∃ first, FirstTerminalOf w.db c first ∧ a.observedPaymentOutcome = eventOutcome first := by
  have hrun : Run.exec (liveProgram policy).worldStep w₁ (.advance i input :: as₂) = some w := by
    rw [liveRun, Run.exec_append_of_eq h₁] at h
    exact h
  obtain ⟨w₂, hstep, hrest⟩ := Option.bind_eq_some_iff.mp hrun
  obtain ⟨first, hread, hmem, hterminal, hleast⟩ := hfirst
  have hworld := liveRun_settlementWorld h₁
  -- the run's own event is a terminal event of the attempt
  have hevent : e ∈ w₁.db.events :=
    ((liveProgram_ingested policy).exec_true (.empty trivial) h₁).session s
      (List.mem_of_getElem? hs) e (by rw [hproc]; rfl)
  have hown : isTerminalFrom c.sourceSystem c.paymentAttemptId e = true := by
    rw [hsource, hkey]
    exact isTerminalFrom_of_resolve hrole
  have hle : first.ingestedAt ≤ e.ingestedAt :=
    hleast e ((exec_keeps rfl hrun).events hevent) hown
  obtain ⟨s₂, hs₂, hfound⟩ := start_found hworld hs hproc hrole hc hkey hread hle hstep
  obtain ⟨s', hs', hdone⟩ := hfinished
  obtain ⟨s'', hs'', hend⟩ := (found_carried policy c first hterminal).exec
    (fun _ _ _ hu hua => hu.step hua) (fun _ hu => hu.good) (hworld.step hstep) hs₂
    (.inr hfound) hrest
  obtain rfl : s'' = s' := Option.some.inj (hs''.symm.trans hs')
  have hfound' := hend.resolve_left (by rw [hdone]; simp)
  obtain ⟨hobs, a, ha, hid, e', he', hof, hat, hout⟩ :=
    hfound'.settled (liveRun_settlementWorld h) hdone
  exact ⟨hobs, a, ha, hid, e',
    ⟨he', hof, fun x hx hxof => hat.trans (hleast x hx hxof)⟩, hout⟩

namespace SettlementExample

open LedgerExample BarrierExample

/-! ## Runs without commands -/

/-- No run dies, and the executor answers. -/
def answers : LiveAction → Bool
  | .advance _ input => input.result.isSome
  | .arrive _ | .look _ => true
  | .abort _ => false

/-- The input of a step in which the executor answers. -/
def answered : LiveInput :=
  { result := some ⟨.success, "SIMULATOR_V1", true, "", none, none, 0⟩ }

/-- The runs lead from one world to the other, while the executor answers. -/
def Goes (policy : InterventionPolicy) (w w' : LiveWorld) : Prop :=
  ∃ as : List LiveAction, (∀ a ∈ as, answers a = true) ∧
    Run.exec (liveProgram policy).worldStep w as = some w'

/-- The run has returned. -/
def ended (p : LiveProc) : Prop := p = .finished ∨ p = .failed

/-- The run has yet to start Stages 5-8, which have nothing to do for its event. -/
def idle (db : Database) (p : LiveProc) : Bool :=
  match p with
  | .analytics e | .start e =>
      match resolvePipelineAttempt e with
      | none => true
      | some ⟨.trigger, _⟩ => false
      | some ⟨.terminal, ref⟩ =>
          db.commands.all fun c => c.paymentAttemptId ≠ ref.paymentAttemptId
  | _ => false

section Idle
variable {policy : InterventionPolicy} {w w' w'' : LiveWorld} {i : ℕ} {s : LiveSession}
  {next : LiveProc} {e : PaymentEvent}

theorem Goes.refl (w : LiveWorld) : Goes policy w w := ⟨[], by simp, rfl⟩

theorem Goes.trans (h : Goes policy w w') (h' : Goes policy w' w'') : Goes policy w w'' := by
  obtain ⟨as, has, hrun⟩ := h
  obtain ⟨bs, hbs, hrun'⟩ := h'
  refine ⟨as ++ bs, fun a ha => (List.mem_append.mp ha).elim (has a) (hbs a), ?_⟩
  rw [Run.exec_append_of_eq hrun, hrun']

theorem Goes.step (i : ℕ)
    (h : (liveProgram policy).worldStep w (.advance i answered) = some w') : Goes policy w w' :=
  ⟨[.advance i answered], by simp [answers, answered], by simp [h]⟩

theorem outcome_eq (policy : InterventionPolicy) (db : Database) (s : LiveSession)
    (input : LiveInput) : (liveProgram policy).outcome db s input =
      liveStep policy s.proc input ((liveProgram policy).reads db s)
        ((liveProgram policy).view db s) := rfl

theorem Goes.moved (hs : w.sessions[i]? = some s)
    (ho : (liveProgram policy).outcome w.db s answered = some (.write [] next)) :
    Goes policy w (w.setSession i (s.wrote [] next)) := by
  refine Goes.step i ?_
  simp only [Program.worldStep, hs, ho]
  exact Program.Simulates.perform_nil w i s next

theorem Goes.finish (hs : w.sessions[i]? = some s) (hproc : s.proc = .finish)
    (hpending : s.pending = []) : Goes policy w (w.setSession i (.fresh .finished)) := by
  have ho : (liveProgram policy).outcome w.db s answered = some (.commit .finished) := by
    rw [outcome_eq, hproc]
    rfl
  have hview : (liveProgram policy).view w.db s = w.db := by
    rw [liveProgram_view, hpending, List.foldl_nil]
  refine Goes.step i ?_
  simp only [Program.worldStep, hs, ho, Program.perform, hview]
  rfl

theorem setSession_setSession (w : LiveWorld) (i : ℕ) (s t : LiveSession) :
    (w.setSession i s).setSession i t = w.setSession i t := by
  simp [World.setSession]

/-- A run that is not in its transaction reads the committed store. -/
theorem outcome_fresh (policy : InterventionPolicy) (db : Database) (p : LiveProc)
    (input : LiveInput) : (liveProgram policy).outcome db (.fresh p) input =
      liveStep policy p input (fun _ => db) db := rfl

/-- A run that has nothing to do in Stages 5-8 finishes. -/
theorem Goes.fromStart (hs : w.sessions[i]? = some (.fresh (.start e)))
    (hidle : idle w.db (.start e) = true) :
    Goes policy w (w.setSession i (.fresh .finished)) := by
  have hlt : i < w.sessions.length := (List.getElem?_eq_some_iff.mp hs).1
  have hlast : ∀ s' : LiveSession, s'.proc = .finish → s'.pending = [] →
      Goes policy (w.setSession i s') (w.setSession i (.fresh .finished)) := by
    intro s' hfinish hnone
    have hat : (w.setSession i s').sessions[i]? = some s' := by simp [hlt]
    have hgo : Goes policy _ _ := Goes.finish hat hfinish hnone
    rwa [setSession_setSession] at hgo
  cases hrole : resolvePipelineAttempt e with
  | none =>
      have ho : (liveProgram policy).outcome w.db (.fresh (.start e)) answered =
          some (.write [] .finish) := by
        rw [outcome_fresh]
        simp only [liveStep, hrole]
      exact (Goes.moved hs ho).trans (hlast _ rfl rfl)
  | some a =>
      obtain ⟨role, ref⟩ := a
      cases role with
      | trigger => simp [idle, hrole] at hidle
      | terminal =>
          have hnone : settlementQueue (answered.toCallInput.reads fun _ => w.db) e
              ref.paymentAttemptId = [] := by
            refine List.map_eq_nil_iff.mpr (List.eq_nil_iff_forall_not_mem.mpr fun c hc => ?_)
            obtain ⟨hmem, hkey⟩ := Reads.mem_rows.mp hc
            simp only [idle, hrole, List.all_eq_true] at hidle
            exact absurd hkey (by simpa using hidle c hmem)
          have ho : (liveProgram policy).outcome w.db (.fresh (.start e)) answered =
              some (.write [] (.settle e [])) := by
            rw [outcome_fresh]
            simp only [liveStep, hrole, hnone]
          refine (Goes.moved hs ho).trans ?_
          have hat : (w.setSession i (Session.wrote (.fresh (.start e)) []
              (.settle e []))).sessions[i]? = some (Session.wrote (.fresh (.start e)) []
                (.settle e [])) := by simp [hlt]
          have hmid : Goes policy _ (World.setSession _ i (Session.wrote _ [] .finish)) :=
            Goes.moved hat (by rw [outcome_eq]; rfl)
          rw [setSession_setSession] at hmid
          exact hmid.trans (hlast _ rfl rfl)

/-- Stages 2-4 of a run that is alone in its transaction. -/
theorem Goes.analyzed {tables : AnalyticsTables}
    (hs : w.sessions[i]? = some (.fresh (.analytics e)))
    (hnone : ∀ s ∈ w.sessions, s.pending = [])
    (hrun : runAnalytics answered.order w.db e answered.now = .ok tables) :
    Goes policy w
      { w.setSession i (.fresh (.start e)) with db := { w.db with analytics := tables } } := by
  have hlt : i < w.sessions.length := (List.getElem?_eq_some_iff.mp hs).1
  have ho : (liveProgram policy).outcome w.db (.fresh (.analytics e)) answered =
      some (.write [.setAnalytics tables] (.analyticsStored e)) := by
    have hruns : (do
        let tables ← runAnalytics answered.order w.db e answered.now
        return Outcome.write [Write.setAnalytics tables] (LiveProc.analyticsStored e) :
          Except ServiceError LiveOutcome) =
        .ok (.write [.setAnalytics tables] (.analyticsStored e)) := by
      rw [hrun]
      rfl
    rw [outcome_fresh]
    exact congrArg (fun r => some (orFail r)) hruns
  have hfree : (liveProgram policy).blocked w i [.setAnalytics tables] = false := by
    refine List.any_eq_false.mpr fun t ht hb => ?_
    simp [hnone t.1 (List.fst_mem_of_mem_zipIdx ht)] at hb
  have hok : (liveProgram policy).violatesAny
      ((liveProgram policy).view w.db (.fresh (.analytics e))) [.setAnalytics tables] = false :=
    rfl
  have hwrite : (liveProgram policy).worldStep w (.advance i answered) = some (w.setSession i
      (Session.wrote (.fresh (.analytics e)) [.setAnalytics tables] (.analyticsStored e))) := by
    simp only [Program.worldStep, hs, ho, Program.perform, hfree, hok, Bool.false_eq_true,
      if_false]
  refine (Goes.step i hwrite).trans (Goes.step i ?_)
  simp only [Program.worldStep, World.sessions_setSession, List.getElem?_set_self hlt]
  simp [outcome_eq, Session.wrote, Session.fresh, liveStep, Program.perform, World.setSession,
    liveProgram_view, Database.apply]

variable (policy) in
/-- A run that has nothing to do in Stages 5-8 ends, and changes the analytics only. -/
theorem Goes.toEnd {p : LiveProc} (hs : w.sessions[i]? = some (.fresh p))
    (hidle : idle w.db p = true) (hnone : ∀ s ∈ w.sessions, s.pending = []) :
    ∃ w' q tables, Goes policy w w' ∧ ended q ∧
      w' = { w.setSession i (.fresh q) with db := { w.db with analytics := tables } } := by
  have hlt : i < w.sessions.length := (List.getElem?_eq_some_iff.mp hs).1
  cases p with
  | start e =>
      exact ⟨_, .finished, w.db.analytics, Goes.fromStart hs hidle, .inl rfl, rfl⟩
  | analytics e =>
      cases hrun : runAnalytics answered.order w.db e answered.now with
      | error err =>
          have ho : (liveProgram policy).outcome w.db (.fresh (.analytics e)) answered =
              some (.rollback .failed) := by
            have hfails : (do
                let tables ← runAnalytics answered.order w.db e answered.now
                return Outcome.write [Write.setAnalytics tables] (LiveProc.analyticsStored e) :
                  Except ServiceError LiveOutcome) = .error err := by
              rw [hrun]
              rfl
            rw [outcome_fresh]
            exact congrArg (fun r => some (orFail r)) hfails
          refine ⟨_, .failed, w.db.analytics, Goes.step i ?_, .inr rfl, rfl⟩
          simp only [Program.worldStep, hs, ho]
          rfl
      | ok tables =>
          have hstart : idle { w.db with analytics := tables } (.start e) = true := hidle
          have hat : (w.sessions.set i (.fresh (.start e)))[i]? = some (.fresh (.start e)) :=
            List.getElem?_set_self hlt
          refine ⟨_, .finished, tables, (Goes.analyzed hs hnone hrun).trans
            (Goes.fromStart hat hstart), .inl rfl, ?_⟩
          simp [World.setSession]
  | _ => simp [idle] at hidle

/-- The runs that are not in their transactions, each of which has returned or has nothing
to do in Stages 5-8. -/
def Idle (w : LiveWorld) : Prop :=
  ∀ s ∈ w.sessions, ∃ p, s = .fresh p ∧ (ended p ∨ idle w.db p = true)

/-- What happens on the way to the end of some runs: the analytics change, and runs that
have returned stay as they are. -/
structure Kept (w w' : LiveWorld) : Prop where
  idle : Idle w'
  length : w'.sessions.length = w.sessions.length
  db : ∃ tables, w'.db = { w.db with analytics := tables }
  ended : ∀ {j : ℕ} {s : LiveSession}, w.sessions[j]? = some s → ended s.proc →
    w'.sessions[j]? = some s

theorem Kept.trans (h : Kept w w') (h' : Kept w' w'') : Kept w w'' := by
  obtain ⟨tables, hdb⟩ := h.db
  obtain ⟨tables', hdb'⟩ := h'.db
  exact ⟨h'.idle, h'.length.trans h.length, ⟨tables', by rw [hdb', hdb]⟩,
    fun hs hended => h'.ended (h.ended hs hended) hended⟩

variable (policy) in
/-- One of the runs returns. -/
theorem Goes.oneEnds (h : Idle w) (hs : w.sessions[i]? = some s) :
    ∃ w' s', Goes policy w w' ∧ Kept w w' ∧ w'.sessions[i]? = some s' ∧ ended s'.proc := by
  obtain ⟨p, rfl, hp⟩ := h s (List.mem_of_getElem? hs)
  rcases hp with hp | hp
  · exact ⟨w, _, .refl w, ⟨h, rfl, ⟨w.db.analytics, rfl⟩, fun hs _ => hs⟩, hs, hp⟩
  · have hnone : ∀ s ∈ w.sessions, s.pending = [] := by
      intro s hs
      obtain ⟨q, rfl, -⟩ := h s hs
      rfl
    have hlt : i < w.sessions.length := (List.getElem?_eq_some_iff.mp hs).1
    obtain ⟨u, q, tables, hgo, hq, rfl⟩ := Goes.toEnd policy hs hp hnone
    refine ⟨_, .fresh q, hgo, ⟨fun s hs => ?_, by simp [World.setSession], ⟨tables, rfl⟩,
      fun {j s} hs' hended => ?_⟩, List.getElem?_set_self hlt, hq⟩
    · rcases List.mem_or_eq_of_mem_set hs with hs | rfl
      · exact h s hs
      · exact ⟨q, rfl, .inl hq⟩
    · have hne : i ≠ j := by
        rintro rfl
        obtain rfl := Option.some.inj (hs.symm.trans hs')
        rcases hended with hend | hend <;> rw [show p = _ from hend] at hp <;> simp [idle] at hp
      rw [← hs']
      exact List.getElem?_set_ne hne

variable (policy) in
/-- The first of the runs return, one after the other. -/
theorem Goes.prefixEnds (h : Idle w) : ∀ n ≤ w.sessions.length, ∃ w', Goes policy w w' ∧
    Kept w w' ∧ ∀ j < n, ∃ s, w'.sessions[j]? = some s ∧ ended s.proc
  | 0, _ => ⟨w, .refl w, ⟨h, rfl, ⟨w.db.analytics, rfl⟩, fun hs _ => hs⟩, by simp⟩
  | n + 1, hn => by
      obtain ⟨w', hgo, hkept, hended⟩ := Goes.prefixEnds h n (Nat.le_of_succ_le hn)
      have hlt : n < w'.sessions.length := hkept.length ▸ hn
      obtain ⟨w'', s, hgo', hkept', hs, hend⟩ :=
        Goes.oneEnds policy hkept.idle (List.getElem?_eq_getElem hlt)
      refine ⟨w'', hgo.trans hgo', hkept.trans hkept', fun j hj => ?_⟩
      rcases Nat.lt_succ_iff_lt_or_eq.mp hj with hj | rfl
      · obtain ⟨s', hs', hend'⟩ := hended j hj
        exact ⟨s', hkept'.ended hs' hend', hend'⟩
      · exact ⟨s, hs, hend⟩

variable (policy) in
/-- All of them return. -/
theorem Goes.allEnd (h : Idle w) :
    ∃ w', Goes policy w w' ∧ Kept w w' ∧ ∀ s ∈ w'.sessions, ended s.proc := by
  obtain ⟨w', hgo, hkept, hended⟩ := Goes.prefixEnds policy h _ le_rfl
  refine ⟨w', hgo, hkept, fun s hs => ?_⟩
  obtain ⟨j, hj, rfl⟩ := List.mem_iff_getElem.mp hs
  obtain ⟨s', hs', hend⟩ := hended j (hkept.length ▸ hj)
  obtain rfl : w'.sessions[j] = s' := by
    rw [List.getElem?_eq_getElem hj] at hs'
    exact Option.some.inj hs'
  exact hend

end Idle

/-- The capture is ingested 200 seconds after the authorization. -/
def t₂ : Time := t₁ + Time.seconds 200

/-- The capture's run ends while the authorization's run is at its check; then so does the
authorization's. -/
def overtaking : List LiveAction :=
  captureAfter 200 ++ advances 154 5 t₂ ++ check :: advances 153 7 t₁

/-- The authorization's run ends, and the capture's run gets to Stages 5-8. -/
def following : List LiveAction :=
  check :: advances 153 7 t₁ ++ captureAfter 200 ++ advances 154 2 t₂

/-- The world in which the capture's run is overtaken, the one in which it is about to settle,
and the one in which it has. -/
def settlements : Option (LiveWorld × LiveWorld × LiveWorld) := do
  let w₀ ← afterOutage
  let w ← execDefault w₀ authorize
  let u ← execDefault w overtaking
  let v ← execDefault w following
  let v' ← execDefault v (advances 154 9 t₂)
  return (u, v, v')

/-- No session is in its transaction, and each has returned or is idle. -/
def idleWorld (w : LiveWorld) : Bool :=
  w.sessions.all fun s => s.pending.isEmpty && s.locks.isEmpty && s.views.isEmpty &&
    (decide (s.proc = .finished ∨ s.proc = .failed) || idle w.db s.proc)

theorem idle_of_idleWorld {w : LiveWorld} (h : idleWorld w = true) : Idle w := by
  intro s hs
  have hall := List.all_eq_true.mp h s hs
  simp only [Bool.and_eq_true, List.isEmpty_iff, Bool.or_eq_true, decide_eq_true_eq] at hall
  obtain ⟨⟨⟨hpending, hlocks⟩, hviews⟩, hproc⟩ := hall
  obtain ⟨p, pending, locks, views⟩ := s
  cases hpending
  cases hlocks
  cases hviews
  exact ⟨p, rfl, hproc⟩

/-- A command that succeeded, of an attempt with a terminal event, has not been observed. -/
def unobserved (db : Database) : Bool :=
  db.commands.any fun c => decide (c.commandStatus = .succeeded) &&
    db.events.any (isTerminalFrom c.sourceSystem c.paymentAttemptId) &&
    db.observations.all (·.commandId ≠ c.commandId)

/-- Whether a run has finished. -/
def finishes (w : LiveWorld) (i : ℕ) : Bool := (w.sessions[i]?).any (·.proc = .finished)

/-- The event of a run that is to start Stages 5-8. -/
def startEvent : LiveProc → Option PaymentEvent
  | .start e => some e
  | _ => none

/-- The attempt that an event's run settles. -/
def settledAttempt (e : PaymentEvent) : Option AttemptRef :=
  match resolvePipelineAttempt e with
  | some ⟨.terminal, ref⟩ => some ref
  | _ => none

/-- What a run that is about to settle a command reads: the command and a first terminal
event. -/
def settling (w : LiveWorld) (db : Database) (i : ℕ) :
    Option (LiveSession × PaymentEvent × AttemptRef × InterventionCommand × PaymentEvent) := do
  let s ← w.sessions[i]?
  let e ← startEvent s.proc
  let ref ← settledAttempt e
  let read := (liveProgram getDefaultPolicy).reads w.db s 0
  let c ← read.commands.find? fun c =>
    c.sourceSystem = ref.sourceSystem ∧ c.paymentAttemptId = ref.paymentAttemptId
  let first ← read.events.find? fun first => FirstTerminalOf db c first
  return (s, e, ref, c, first)

theorem settlements_facts : (settlements.map fun (u, v, v') =>
    finishes u 153 && finishes u 154 && idleWorld u && unobserved u.db &&
      finishes v' 154 && (settling v v'.db 154).isSome) = some true := by
  rw [settlements, afterOutage_world]
  decide +kernel

theorem overtaken_answers : (outage ++ authorize ++ overtaking).all answers = true := by
  decide +kernel

theorem settling_eq_some {w : LiveWorld} {db : Database} {i : ℕ} {s : LiveSession}
    {e first : PaymentEvent} {ref : AttemptRef} {c : InterventionCommand}
    (h : settling w db i = some (s, e, ref, c, first)) :
    w.sessions[i]? = some s ∧ s.proc = .start e ∧
      resolvePipelineAttempt e = some ⟨.terminal, ref⟩ ∧
      (c ∈ ((liveProgram getDefaultPolicy).reads w.db s 0).commands ∧
        c.sourceSystem = ref.sourceSystem ∧ c.paymentAttemptId = ref.paymentAttemptId) ∧
      first ∈ ((liveProgram getDefaultPolicy).reads w.db s 0).events ∧
      FirstTerminalOf db c first := by
  simp only [settling, Option.bind_eq_bind, Option.bind_eq_some_iff, Option.pure_def,
    Option.some.injEq, Prod.mk.injEq] at h
  obtain ⟨s', hs, e', hproc, ref', hrole, c', hc, first', hfirst, rfl, rfl, rfl, rfl, rfl⟩ := h
  refine ⟨hs, ?_, ?_, ⟨List.mem_of_find?_eq_some hc, by simpa using List.find?_some hc⟩,
    List.mem_of_find?_eq_some hfirst, by simpa using List.find?_some hfirst⟩
  · unfold startEvent at hproc
    split at hproc
    · rename_i hat
      rw [hat, Option.some.inj hproc]
    · cases hproc
  · unfold settledAttempt at hrole
    split at hrole
    · rename_i hat
      rw [hat, Option.some.inj hrole]
    · cases hrole

/-- The runs, and what holds of them. -/
theorem settlements_run : ∃ u v v',
    liveRun getDefaultPolicy (outage ++ authorize ++ overtaking) = some u ∧
      (liveRun getDefaultPolicy (outage ++ authorize ++ following) = some v ∧
        liveRun getDefaultPolicy
          (outage ++ authorize ++ following ++ advances 154 9 t₂) = some v') ∧
      (finishes u 153 = true ∧ finishes u 154 = true ∧ idleWorld u = true ∧
        unobserved u.db = true) ∧
      finishes v' 154 = true ∧ (settling v v'.db 154).isSome = true := by
  obtain ⟨⟨u, v, v'⟩, hworlds, hfacts⟩ := Option.map_eq_some_iff.mp settlements_facts
  simp only [settlements, Option.bind_eq_bind, Option.bind_eq_some_iff, Option.pure_def,
    Option.some.injEq, Prod.mk.injEq] at hworlds
  obtain ⟨w₀, hw₀, w, hw, u₁, hu, v₁, hv, v₂, hv', rfl, rfl, rfl⟩ := hworlds
  have houtage := (Run.execGuarded_eq_some.mp (afterOutage_eq hw₀)).2
  have hrun : ∀ {as x}, execDefault w as = some x →
      liveRun getDefaultPolicy (outage ++ authorize ++ as) = some x := by
    intro as x hx
    rw [liveRun, List.append_assoc, Run.exec_append_of_eq houtage, Run.exec_append_of_eq hw,
      ← hx, execDefault]
  simp only [Bool.and_eq_true, and_assoc] at hfacts
  obtain ⟨h153, h154, hidle, hunobserved, hrest⟩ := hfacts
  refine ⟨_, _, _, hrun hu, ⟨hrun hv, ?_⟩, ⟨h153, h154, hidle, hunobserved⟩, hrest⟩
  rw [liveRun, Run.exec_append_of_eq (hrun hv), ← hv', execDefault]

end SettlementExample

open SettlementExample BarrierExample LedgerExample in
/-- The capture's run settles the command of the authorization's run, which ended before. -/
theorem settled_of_finished_capture : ∃ w c,
    liveRun getDefaultPolicy (outage ++ authorize ++ following ++ advances 154 9 t₂) = some w ∧
      (∃ o ∈ w.db.observations, o.commandId = c.commandId) ∧
      ∃ a ∈ w.db.attributions, a.commandId = c.commandId ∧
        ∃ first, FirstTerminalOf w.db c first ∧ a.observedPaymentOutcome = eventOutcome first := by
  obtain ⟨-, v, v', -, ⟨hv, hv'⟩, -, hfinished, hsettling⟩ := settlements_run
  obtain ⟨⟨s, e, ref, c, first⟩, hsettling⟩ := Option.isSome_iff_exists.mp hsettling
  obtain ⟨hs, hproc, hrole, ⟨hc, hsource, hkey⟩, hread, hfirst⟩ := settling_eq_some hsettling
  obtain ⟨s', hs', hdone⟩ := (Option.any_eq_true _ _).mp hfinished
  exact ⟨v', c, hv', settled_of_finished hv hs hproc hrole hc hsource hkey hv'
    ⟨s', hs', of_decide_eq_true hdone⟩ ⟨first, hread, hfirst⟩⟩

open SettlementExample BarrierExample LedgerExample in
/-- A capture whose run ends before the authorization's run commits its command leaves the
command unsettled, although every run returns and the executor always answers. -/
theorem unsettled : ∃ as w, liveRun getDefaultPolicy as = some w ∧
    (∀ a ∈ as, answers a = true) ∧ (∀ s ∈ w.sessions, ended s.proc) ∧
    (∃ s, w.sessions[153]? = some s ∧ s.proc = .finished) ∧
    (∃ s, w.sessions[154]? = some s ∧ s.proc = .finished) ∧
    ∃ c ∈ w.db.commands, c.commandStatus = .succeeded ∧
      (∃ e ∈ w.db.events, isTerminalFrom c.sourceSystem c.paymentAttemptId e = true) ∧
      ∀ o ∈ w.db.observations, o.commandId ≠ c.commandId := by
  obtain ⟨u, -, -, hu, -, ⟨h153, h154, hidle, hunobserved⟩, -⟩ := settlements_run
  obtain ⟨w, ⟨as, has, hrun⟩, hkept, hended⟩ :=
    Goes.allEnd getDefaultPolicy (idle_of_idleWorld hidle)
  have hstays : ∀ {i}, finishes u i = true →
      ∃ s, w.sessions[i]? = some s ∧ s.proc = .finished := by
    intro i hi
    obtain ⟨s, hs, hdone⟩ := (Option.any_eq_true _ _).mp hi
    have hdone := of_decide_eq_true hdone
    exact ⟨s, hkept.ended hs (.inl hdone), hdone⟩
  obtain ⟨tables, hdb⟩ := hkept.db
  obtain ⟨c, hc, hfacts⟩ := List.any_eq_true.mp hunobserved
  simp only [Bool.and_eq_true, List.any_eq_true, List.all_eq_true, decide_eq_true_eq] at hfacts
  obtain ⟨⟨hstatus, hterminal⟩, hnone⟩ := hfacts
  refine ⟨outage ++ authorize ++ overtaking ++ as, w, (Run.exec_append_of_eq hu).trans hrun,
    fun a ha => ?_, hended, hstays h153, hstays h154, c, ?_⟩
  swap
  · rw [hdb]
    exact ⟨hc, hstatus, hterminal, hnone⟩
  exact (List.mem_append.mp ha).elim (List.all_eq_true.mp overtaken_answers a) (has a)

end RevenueRecovery
