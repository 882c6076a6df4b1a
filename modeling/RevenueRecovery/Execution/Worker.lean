import Mathlib.Tactic.SplitIfs
import RevenueRecovery.Execution.LifeCycle

/-!
# Stage 7: concurrent workers

Workers create commands and execute them, each in a transaction of its own, while
events and attempts keep arriving. Every committed command follows its life cycle
(`commands_lifeCycle`), and the executor is called again for a command only after the
transaction of the earlier call was rolled back (`calls_rolledBack`).

## Main definitions
* `WorkerProc`, `workerProgram` : the workers as a transactional program.
* `WorkerLocal` : what holds of a worker between its steps.
* `CallState` : what became of the transaction that called the executor.
-/
namespace RevenueRecovery

open Transaction

/-- Where a worker stands. -/
inductive WorkerProc
  | create (decision : InterventionDecision) (expiresInSeconds : ℤ) (now : Time)
  | created
  | execute (commandId : CommandId) (claimTime : Time) (p : ExecuteProc)
  | committed
  | rolledBack
deriving DecidableEq

/-- What reaches the workers' store from outside: events, registered attempts, decisions,
and workers. -/
inductive WorkerArrival
  | event (row : PaymentEvent)
  | attempt (row : RegisteredAttempt)
  | decision (row : InterventionDecision)
  | create (decision : InterventionDecision) (expiresInSeconds : ℤ) (now : Time)
  | execute (commandId : CommandId) (claimTime : Time)
deriving DecidableEq

abbrev WorkerOutcome := Outcome Write LockKey InterventionCommand WorkerProc

/-- One step of a worker; an error rolls its transaction back. -/
def workerStep : WorkerProc → Option ExecutionResult → (ℕ → Database) → Database →
    Option WorkerOutcome
  | .create d expiresInSeconds t, _, reads, _ =>
      match createCommand { db := reads } d expiresInSeconds t with
      | .error _ => some (.rollback .rolledBack)
      | .ok (.inl _) => some (.write [] .created)
      | .ok (.inr c) => some (.write [.insertCommand c] .created)
  | .created, _, _, _ => some (.commit .committed)
  | .execute _ _ .done, _, _, _ => some (.commit .committed)
  | .execute id t p, result, reads, now =>
      match executeStep id t { db := reads } now result p with
      | .error _ => some (.rollback .rolledBack)
      | .ok o => some (o.map (.execute id t))
  | .committed, _, _, _ => none
  | .rolledBack, _, _, _ => none

/-- A failed worker is rolled back; a committed one stays committed. -/
def WorkerProc.onError : WorkerProc → WorkerProc
  | .committed => .committed
  | _ => .rolledBack

def WorkerArrival.effect : WorkerArrival → List Write × List WorkerProc
  | .event row => ([.insertEvent row], [])
  | .attempt row => ([.registerAttempt row], [])
  | .decision row => ([.appendDecision row], [])
  | .create d expiresInSeconds now => ([], [.create d expiresInSeconds now])
  | .execute id t => ([], [.execute id t .start])

def workerProgram : Program Database Write LockKey InterventionCommand WorkerProc
    (Option ExecutionResult) WorkerArrival where
  apply := Database.apply
  violates := Database.violates
  clashes := Write.clashes
  clashes_symm := Write.clashes_symm
  step := workerStep
  onError := WorkerProc.onError
  arrive x _ := some x.effect

abbrev WorkerSession := Session Database Write LockKey WorkerProc
abbrev WorkerWorld := World Database Write LockKey InterventionCommand WorkerProc
abbrev WorkerAction := Action (Option ExecutionResult) WorkerArrival

/-- The runs of the workers from an empty store. -/
def workerRun (as : List WorkerAction) : Option WorkerWorld :=
  Run.exec workerProgram.worldStep ⟨{}, [], []⟩ as

/-! ## The local invariant -/

section Invariant
variable (C : CommandId → Time → Prop)

/-- The writes of a worker that has created its command. -/
def CreatePending (db : Database) (ws : List Write) : Prop :=
  ws = [] ∨ ∃ c, ws = [.insertCommand c] ∧ c.commandStatus = .pending ∧
    db.violates (.insertCommand c) = false

/-- The barriers' own reads agree with the committed command. -/
def ViewsAgree (db : Database) (id : CommandId) (views : List Database) : Prop :=
  ∀ v ∈ views, ∀ c, v.getCommandById id = some c → db.getCommandById id = some c

/-- What holds of a worker: its uncommitted writes are those of where it stands, and it
holds the lock of the command it executes. -/
def WorkerLocal (db : Database) (s : WorkerSession) : Prop :=
  match s.proc with
  | .create _ _ _ => s.pending = []
  | .created => CreatePending db s.pending
  | .execute id t p => ExecutePending C db id t p s.pending ∧
      (p ≠ .start → LockKey.command id ∈ s.locks) ∧ (p = .check → ViewsAgree db id s.views)
  | .committed => s.pending = []
  | .rolledBack => s.pending = []

/-- The barriers let an execution start only where `C` holds. -/
def clearedGuard (db : Database) (s : WorkerSession) (_ : Option ExecutionResult) : Prop :=
  ∀ id t, s.proc = .execute id t .check →
    executeCheck { db := workerProgram.reads db s } id t = .ok .claim → C id t

variable {C} {db db' : Database} {s : WorkerSession}

/-- A session's invariant survives a change of the store that keeps the commands it has
locked and its pending insertion insertable. -/
theorem WorkerLocal.mono (h : WorkerLocal C db s)
    (hkeep : ∀ id, LockKey.command id ∈ s.locks → ∀ c, db.getCommandById id = some c →
      db'.getCommandById id = some c)
    (hfresh : ∀ c, .insertCommand c ∈ s.pending → db.violates (.insertCommand c) = false →
      db'.violates (.insertCommand c) = false) : WorkerLocal C db' s := by
  unfold WorkerLocal at h ⊢
  cases hp : s.proc with
  | create d e t => simpa [hp] using h
  | created =>
      simp only [hp] at h ⊢
      rcases h with h | ⟨c, hws, hstatus, hok⟩
      · exact .inl h
      · exact .inr ⟨c, hws, hstatus, hfresh c (by simp [hws]) hok⟩
  | execute id t p =>
      simp only [hp] at h ⊢
      obtain ⟨hpend, hlock, hviews⟩ := h
      by_cases hstart : p = .start
      · subst hstart
        rw [hpend.eq_nil (.inl rfl)]
        exact ⟨.start, hlock, by simp⟩
      · have hkept := hkeep id (hlock hstart)
        exact ⟨hpend.mono hkept, hlock, fun hc v hv c hget => hkept c (hviews hc v hv c hget)⟩
  | committed => simpa [hp] using h
  | rolledBack => simpa [hp] using h

theorem WorkerLocal.congr (h : WorkerLocal C db s) (hc : db'.commands = db.commands) :
    WorkerLocal C db' s :=
  h.mono (fun id _ c hget => by simpa [Database.getCommandById, hc] using hget)
    fun c _ hok => by simpa [Database.violates, hc] using hok

/-- The writes of a worker touch a command only under its lock. -/
theorem WorkerLocal.touches (h : WorkerLocal C db s) {id : CommandId}
    (hid : LockKey.command id ∉ s.locks) : ∀ w ∈ s.pending, ¬ w.touches id := by
  unfold WorkerLocal at h
  cases hp : s.proc with
  | created =>
      simp only [hp] at h
      rcases h with h | ⟨c, hws, -, -⟩ <;> simp_all [Write.touches]
  | execute id' t p =>
      simp only [hp] at h
      obtain ⟨hpend, hlock, -⟩ := h
      by_cases hstart : p = .start
      · subst hstart
        simp [hpend.eq_nil (.inl rfl)]
      · refine hpend.touches fun heq => ?_
        subst heq
        exact hid (hlock hstart)
  | _ => simp_all

theorem WorkerLocal.legal (h : WorkerLocal C db s) : ∀ w ∈ s.pending, w.legal := by
  unfold WorkerLocal at h
  cases hp : s.proc with
  | created =>
      simp only [hp] at h
      rcases h with h | ⟨c, hws, -, -⟩ <;> simp_all [Write.legal]
  | execute id t p =>
      simp only [hp] at h
      exact h.1.legal
  | _ => simp_all

/-- Another session's commit keeps a session's invariant. -/
theorem WorkerLocal.other {t : WorkerSession} (h : WorkerLocal C db s) (ht : WorkerLocal C db t)
    (hapart : Apart workerProgram s t) : WorkerLocal C (s.pending.foldl Database.apply db) t := by
  refine ht.mono (fun id hid c hget => ?_) fun c hc hok => ?_
  · exact Database.getCommandById_foldl hget
      (h.touches fun hmem => hapart.locks _ hmem hid)
  · exact Database.violates_insertCommand_foldl hok fun w hw => hapart.pending w hw _ hc

/-! ## Steps -/

@[simp] theorem workerProgram_apply : workerProgram.apply = Database.apply := rfl
@[simp] theorem workerProgram_violates : workerProgram.violates = Database.violates := rfl
@[simp] theorem workerProgram_step : workerProgram.step = workerStep := rfl

theorem workerProgram_view (db : Database) (s : WorkerSession) :
    workerProgram.view db s = s.pending.foldl Database.apply db := rfl

/-- A step of an execution is a step of `executeStep`, unless it commits or fails. -/
theorem workerStep_execute {id : CommandId} {t : Time} {p : ExecuteProc}
    {result : Option ExecutionResult} {reads : ℕ → Database} {now : Database}
    {o : WorkerOutcome} (h : workerStep (.execute id t p) result reads now = some o) :
    (p = .done ∧ o = .commit .committed) ∨ o = .rollback .rolledBack ∨
      (p ≠ .done ∧ ∃ o', executeStep id t { db := reads } now result p = .ok o' ∧
        o = o'.map (.execute id t)) := by
  by_cases hdone : p = .done
  · subst hdone
    exact .inl ⟨rfl, by simpa [workerStep] using h.symm⟩
  · simp only [workerStep] at h
    cases hstep : executeStep id t { db := reads } now result p with
    | error e =>
        simp only [hstep] at h
        exact .inr (.inl (by simpa using h.symm))
    | ok o' =>
        simp only [hstep] at h
        exact .inr (.inr ⟨hdone, o', rfl, by simpa using h.symm⟩)

/-- A worker's step keeps its invariant, whatever the outcome. -/
theorem WorkerLocal.execute {id : CommandId} {t : Time} {p : ExecuteProc}
    {input : Option ExecutionResult} {o : WorkerOutcome} (h : WorkerLocal C db s)
    (hg : clearedGuard C db s input) (hproc : s.proc = .execute id t p)
    (hstep : workerProgram.outcome db s input = some o) :
    (p = .done ∧ o = .commit .committed) ∨ o = .rollback .rolledBack ∨
      ∃ o', o = o'.map (.execute id t) ∧ ExecuteStepped C db id t s.pending p o' := by
  have hlocal := h
  simp only [WorkerLocal, hproc] at hlocal
  obtain ⟨hpend, -, hviews⟩ := hlocal
  simp only [Program.outcome, hproc] at hstep
  rcases workerStep_execute hstep with hdone | hroll | ⟨hne, o', ho', rfl⟩
  · exact .inl hdone
  · exact .inr (.inl hroll)
  · refine .inr (.inr ⟨o', rfl, hpend.step ho' rfl (fun hcheck c hget => ?_) fun hcheck hok => ?_⟩)
    · subst hcheck
      rcases workerProgram.reads_cases db s 0 with hmem | hview
      · exact hviews rfl _ hmem c hget
      · have hnil := hpend.eq_nil (.inr rfl)
        simpa [hview, workerProgram_view, hnil] using hget
    · subst hcheck
      exact hg id t hproc hok

/-- Arrivals leave the commands alone. -/
theorem commands_arrive (db : Database) (x : WorkerArrival) :
    (x.effect.1.foldl Database.apply db).commands = db.commands ∧
      (x.effect.1.foldl Database.apply db).executionAttempts = db.executionAttempts := by
  cases x with
  | attempt row =>
      simp only [WorkerArrival.effect, List.foldl_cons, List.foldl_nil, Database.apply]
      split <;> exact ⟨rfl, rfl⟩
  | _ => exact ⟨rfl, rfl⟩

theorem workerLocal_arrive (db : Database) (x : WorkerArrival) :
    ∀ p ∈ x.effect.2, WorkerLocal C db (.fresh p) := by
  cases x <;> simp [WorkerArrival.effect, WorkerLocal, ExecutePending.start]

theorem workerLocal_onError (s : WorkerSession) : WorkerLocal C db (.fresh s.proc.onError) := by
  cases hp : s.proc <;> simp [WorkerProc.onError, WorkerLocal]

/-- A create step inserts nothing, or a pending command. -/
theorem workerStep_create {d : InterventionDecision} {e : ℤ} {t : Time}
    {input : Option ExecutionResult} {reads : ℕ → Database} {now : Database}
    {o : WorkerOutcome} (h : workerStep (.create d e t) input reads now = some o) :
    o = .rollback .rolledBack ∨ o = .write [] .created ∨
      ∃ c, c.commandStatus = .pending ∧ o = .write [.insertCommand c] .created := by
  simp only [workerStep] at h
  split at h
  · exact .inl (by simpa using h.symm)
  · exact .inr (.inl (by simpa using h.symm))
  · rename_i c hc
    obtain ⟨-, route, -, ⟨x, hx, -⟩ | ⟨x, hx, -⟩ | hnew⟩ := createCommand_spec hc
    · cases hx
    · cases hx
    · cases hnew
      exact .inr (.inr ⟨_, rfl, by simpa using h.symm⟩)

variable (C) in
/-- What a worker's step can be, with what holds after it. -/
inductive WorkerStepped (db : Database) (s : WorkerSession) : WorkerOutcome → Prop
  | rolledBack : WorkerStepped db s (.rollback .rolledBack)
  | created {vs d e t} (hproc : s.proc = .create d e t) (hnil : s.pending = []) (hvs : vs = [] ∨
        ∃ c, c.commandStatus = .pending ∧ vs = [.insertCommand c]) :
      WorkerStepped db s (.write vs .created)
  | executing {id t p o} (hproc : s.proc = .execute id t p)
      (ho : ExecuteStepped C db id t s.pending p o) : WorkerStepped db s (o.map (.execute id t))
  | committed (hproc : s.proc = .created ∨ ∃ id t, s.proc = .execute id t .done) :
      WorkerStepped db s (.commit .committed)

theorem WorkerLocal.stepped (h : WorkerLocal C db s) {input : Option ExecutionResult}
    {o : WorkerOutcome} (hg : clearedGuard C db s input)
    (hstep : workerProgram.outcome db s input = some o) : WorkerStepped C db s o := by
  cases hp : s.proc with
  | create d e t =>
      have hnil : s.pending = [] := by simpa [WorkerLocal, hp] using h
      simp only [Program.outcome, hp, workerProgram_step] at hstep
      rcases workerStep_create hstep with rfl | rfl | ⟨c, hc, rfl⟩
      · exact .rolledBack
      · exact .created hp hnil (.inl rfl)
      · exact .created hp hnil (.inr ⟨c, hc, rfl⟩)
  | created =>
      simp only [Program.outcome, hp, workerProgram_step] at hstep
      obtain rfl : o = .commit .committed := by simpa [workerStep] using hstep.symm
      exact .committed (.inl hp)
  | execute id t p =>
      rcases h.execute hg hp hstep with ⟨rfl, rfl⟩ | rfl | ⟨o', rfl, ho'⟩
      · exact .committed (.inr ⟨id, t, hp⟩)
      · exact .rolledBack
      · exact .executing hp ho'
  | committed => simp [Program.outcome, hp, workerProgram, workerStep] at hstep
  | rolledBack => simp [Program.outcome, hp, workerProgram, workerStep] at hstep

/-- A worker that can commit leaves the command and attempt tables in agreement. -/
theorem WorkerLocal.commit (h : WorkerLocal C db s) (hstore : CommandStore C db)
    (hproc : s.proc = .created ∨ ∃ id t, s.proc = .execute id t .done) :
    CommandStore C (s.pending.foldl Database.apply db) := by
  rcases hproc with hp | ⟨id, t, hp⟩
  · have hcreate : CreatePending db s.pending := by simpa [WorkerLocal, hp] using h
    rcases hcreate with hnil | ⟨c, hws, hstatus, hok⟩
    · simpa [hnil] using hstore
    · simpa [hws] using hstore.insert hstatus hok
  · have hpend : ExecutePending C db id t .done s.pending := by
      simp only [WorkerLocal, hp] at h
      exact h.1
    exact hpend.commit hstore

theorem workerInvariant :
    workerProgram.Invariant (clearedGuard C) (CommandStore C) (WorkerLocal C) where
  arrive {db x ws ps} hG harr _ := by
    obtain ⟨rfl, rfl⟩ : x.effect.1 = ws ∧ x.effect.2 = ps := by
      simpa [workerProgram, Prod.ext_iff] using harr
    obtain ⟨hc, ha⟩ := commands_arrive db x
    exact ⟨hG.congr hc ha, fun s hs _ => hs.congr hc, workerLocal_arrive _ x⟩
  look {db s} _ h := by
    unfold WorkerLocal Program.looked at *
    cases hp : s.proc with
    | execute id t p =>
        simp only [hp] at h ⊢
        obtain ⟨hpend, hlock, hviews⟩ := h
        refine ⟨hpend, hlock, fun hcheck v hv c hget => ?_⟩
        rcases List.mem_append.mp hv with hv | hv
        · exact hviews hcheck v hv c hget
        · obtain rfl := List.mem_singleton.mp hv
          simpa [workerProgram_view, hpend.eq_nil (.inr hcheck)] using hget
    | _ => simpa [hp] using h
  abort {db s} _ _ := workerLocal_onError s
  lock {db s input key next} _ h hg hstep := by
    have hs := h.stepped hg hstep
    generalize ho : Outcome.lock key next = o at hs
    cases hs with
    | @executing id t p o' hproc ho' =>
        cases ho' with
        | locked =>
            cases ho
            have hnil : s.pending = [] := by
              simp only [WorkerLocal, hproc] at h
              exact h.1.eq_nil (.inl rfl)
            refine ⟨?_, fun _ => List.mem_cons_self, fun _ v hv => ?_⟩
            · simpa [Session.locked, hnil] using ExecutePending.check
            · simp [Session.locked] at hv
        | wrote => cases ho
        | called => cases ho
    | _ => cases ho
  write {db s input ws next} _ h hg hstep hok := by
    have hs := h.stepped hg hstep
    generalize ho : Outcome.write ws next = o at hs
    cases hs with
    | created _ hnil hvs =>
        cases ho
        show CreatePending db (s.pending ++ ws)
        rw [hnil, List.nil_append]
        rcases hvs with rfl | ⟨c, hc, rfl⟩
        · exact .inl rfl
        · refine .inr ⟨c, rfl, hc, ?_⟩
          simpa [Program.violatesAny, workerProgram_view, hnil] using hok
    | @executing id t p o' hproc ho' =>
        cases ho' with
        | wrote hp hstart hcheck _ hpend =>
            cases ho
            simp only [WorkerLocal, hproc] at h
            exact ⟨hpend, fun _ => h.2.1 hp, fun heq => absurd heq hcheck⟩
        | locked => cases ho
        | called => cases ho
    | _ => cases ho
  call {db s input effect next} _ h hg hstep := by
    have hs := h.stepped hg hstep
    generalize ho : Outcome.call effect next = o at hs
    cases hs with
    | @executing id t p o' hproc ho' =>
        cases ho' with
        | called hid hpend =>
            cases ho
            simp only [WorkerLocal, hproc] at h
            exact ⟨hpend, fun _ => h.2.1 (by simp), fun heq => by cases heq⟩
        | locked => cases ho
        | wrote => cases ho
    | _ => cases ho
  rollback {db s input next} _ h hg hstep := by
    have hs := h.stepped hg hstep
    generalize ho : Outcome.rollback next = o at hs
    cases hs with
    | rolledBack => cases ho; simp [WorkerLocal]
    | @executing id t p o' hproc ho' => cases ho' <;> cases ho
    | _ => cases ho
  commit {db s input next} hG h hg hstep := by
    have hs := h.stepped hg hstep
    generalize ho : Outcome.commit next = o at hs
    cases hs with
    | committed hproc =>
        cases ho
        exact ⟨h.commit hG hproc, by simp [WorkerLocal], fun t ht hapart => h.other ht hapart⟩
    | @executing id t p o' hproc ho' => cases ho' <;> cases ho
    | _ => cases ho

/-- Committed commands keep their payload and move along legal transitions. -/
theorem workerGuarantee :
    workerProgram.Guarantee (clearedGuard C) (CommandStore C) (WorkerLocal C) CommandsEvolve where
  refl := CommandsEvolve.refl
  trans := CommandsEvolve.trans
  arrive {db x ws ps} _ harr _ := by
    obtain ⟨rfl, rfl⟩ : x.effect.1 = ws ∧ x.effect.2 = ps := by
      simpa [workerProgram, Prod.ext_iff] using harr
    exact .foldl db (by cases x <;> simp [WorkerArrival.effect, Write.legal])
  commit _ h _ _ := .foldl _ h.legal

end Invariant

/-! ## The life cycle of committed commands -/

/-- The step runs the barriers of an execution of the command at `t`, and they let it
start: the command it reads expires later, and no terminal event of its payment attempt
among the events it reads was ingested by `t`. -/
def PassesBarriers (id : CommandId) (t : Time) (w : WorkerWorld) (a : WorkerAction) : Prop :=
  ∃ i input s, a = .advance i input ∧ w.sessions[i]? = some s ∧ s.proc = .execute id t .check ∧
    ∃ c, (workerProgram.reads w.db s 0).getCommandById id = some c ∧ t < c.expiresAt ∧
      ∀ e ∈ (workerProgram.reads w.db s 2).events,
        isTerminalOf c.paymentAttemptId e = true → t < e.ingestedAt

/-- Some step of the run passed the barriers for the command at `t`. -/
def PassedBarriers (as : List WorkerAction) (id : CommandId) (t : Time) : Prop :=
  Run.Occurs workerProgram.worldStep ⟨{}, [], []⟩ as (PassesBarriers id t)

/-- In a run, whatever the barriers let through has passed them. -/
theorem guarded_passedBarriers (as : List WorkerAction) :
    Run.Guarded workerProgram.worldStep (Program.worldGuard (clearedGuard (PassedBarriers as)))
      ⟨{}, [], []⟩ as := by
  refine Run.guarded_of_forall fun as₁ a as₂ w heq hw => ?_
  cases a with
  | advance i input =>
      intro s hs id t hproc hcheck
      obtain ⟨c, hget, ⟨-, hn⟩ | ⟨-, -, hn⟩ | ⟨-, -, -, hn⟩ | ⟨-, hlt, hterm, -⟩⟩ :=
        executeCheck_spec hcheck
      · cases hn
      · cases hn
      · cases hn
      · refine ⟨as₁, _, as₂, w, heq, hw, i, input, s, rfl, hs, hproc, c, hget, hlt, ?_⟩
        intro e he hte
        have hnone := List.any_eq_false.mp hterm e he
        simpa [hte] using hnone
  | _ => exact trivial

/-- The execution attempts a command has, by its status. -/
def StatusMatches (c : InterventionCommand) (rows : List ExecutionAttempt) : Prop :=
  ((c.commandStatus = .succeeded ∨ c.commandStatus = .failed) ↔ ∃ a, rows = [a]) ∧
    (∀ a ∈ rows, a.executionStatus = .success ↔ c.commandStatus = .succeeded) ∧
    ((c.commandStatus = .pending ∨ c.commandStatus = .expired ∨ c.commandStatus = .notNeeded) ↔
      rows = [])

theorem AttemptsMatch.statusMatches {c : InterventionCommand} {rows : List ExecutionAttempt}
    (h : AttemptsMatch c.commandStatus rows) : StatusMatches c rows := by
  unfold StatusMatches
  cases hc : c.commandStatus <;> rw [hc] at h <;> simp only [AttemptsMatch] at h
  case succeeded => obtain ⟨a, rfl, ha⟩ := h; simp [ha]
  case failed => obtain ⟨a, rfl, ha⟩ := h; simp [ha]
  all_goals simp [h]

/-- In every committed state: commands keep identity and payload and move along legal
transitions, a terminal status stays, statuses and execution attempts agree, and an attempt
exists only for an execution that started before the expiry and passed the barriers. -/
theorem commands_lifeCycle {as bs : List WorkerAction} {w w' : WorkerWorld}
    (h : workerRun as = some w) (h' : Run.exec workerProgram.worldStep w bs = some w') :
    CommandsEvolve w.db w'.db ∧
      (w'.db.commands.map (·.commandId)).Nodup ∧
      (∀ c ∈ w.db.commands, legalTransitions c.commandStatus = [] →
        ∀ c' ∈ w'.db.commands, c'.commandId = c.commandId → c'.commandStatus = c.commandStatus) ∧
      (∀ c ∈ w'.db.commands, StatusMatches c (attemptsOf w'.db c.commandId)) ∧
      (∀ a ∈ w'.db.executionAttempts,
        (∃ c ∈ w'.db.commands, c.commandId = a.commandId ∧ a.startedAt < c.expiresAt) ∧
        PassedBarriers (as ++ bs) a.commandId a.startedAt) := by
  let C := PassedBarriers (as ++ bs)
  have hstart : workerProgram.Good (CommandStore C) (WorkerLocal C) ⟨{}, [], []⟩ :=
    .empty ⟨by simp, by simp, by simp⟩
  obtain ⟨hg₁, hg₂⟩ := Run.guarded_append h (guarded_passedBarriers (as ++ bs))
  have hmid := workerInvariant.exec hstart hg₁ h
  have hend := workerInvariant.exec hmid hg₂ h'
  have hevolve := workerGuarantee.exec workerInvariant hmid hg₂ h'
  refine ⟨hevolve, hend.store.ids, fun c hc hterm c' hc' hid => ?_,
    fun c hc => (hend.store.attempts c hc).statusMatches,
    fun a ha => ⟨(hend.store.started a ha).2, (hend.store.started a ha).1⟩⟩
  obtain ⟨x, hx, hcx⟩ := hevolve c hc
  have hxid : x.commandId = c.commandId := by rw [hcx.payload]; rfl
  obtain rfl : c' = x := List.inj_on_of_nodup_map hend.store.ids hc' hx (hid.trans hxid.symm)
  exact hcx.status_eq hterm

namespace WorkerExample

def authorization : PaymentEvent :=
  { eventId := 0, sourceSystem := razorpaySourceSystem, sourceEventId := "evt_1",
    paymentId := "pay_1", timestamp := 0, eventType := pipelineTriggerEventType,
    currency := "INR", amountMinorUnits := 10000, paymentStatus := "authorized",
    ingestedAt := 0 }

def attempt : RegisteredAttempt :=
  { paymentAttemptId := "pay_1", sourceSystem := razorpaySourceSystem,
    providerReference := "pay_1", triggerEventId := 0 }

def decision : InterventionDecision :=
  { decisionId := ⟨"pay_1", 1⟩
    paymentAttemptId := "pay_1"
    sourceSystem := razorpaySourceSystem
    decisionVersion := 1
    decidedAt := 0
    decisionType := .act
    selectedRouteId := some .retrySecondaryGateway
    failureProbability := some (4 / 5)
    stage5PredictionId := none
    diagnosisConfidence := none
    decisionConfidence := 1
    gateVerdict := .passed
    policyId := "default-recovery-v1"
    policyVersion := "1.0.0"
    inputFingerprint := ⟨"pay_1", 0, 10000, "INR", none, none, none, none, none, none, none, none,
      none, "default-recovery-v1", "1.0.0"⟩ }

def id : CommandId := ⟨decision.decisionId⟩

/-- A worker creates the command; session `0` commits it. -/
def creation : List WorkerAction :=
  [.arrive (.event authorization), .arrive (.attempt attempt), .arrive (.decision decision),
    .arrive (.create decision 300 0), .advance 0 none, .advance 0 none]

/-- Session `i` takes `n` steps; the executor returns a success. -/
def advances (i n : ℕ) : List WorkerAction :=
  List.replicate n (.advance i (some (simulatorExecute
    (newCommand decision .retrySecondaryGateway 300 0))))

/-- A worker executes the command to its commit. -/
def execution : List WorkerAction := .arrive (.execute id 1) :: advances 1 7

/-- A worker dies after the executor returned; another one executes the command again. -/
def crash : List WorkerAction :=
  .arrive (.execute id 1) :: advances 1 5 ++ .abort 1 :: .arrive (.execute id 2) :: advances 2 7

end WorkerExample

open WorkerExample in
theorem commands_lifeCycle_execution : ∃ w w', workerRun creation = some w ∧
    Run.exec workerProgram.worldStep w execution = some w' ∧
    w'.db.executionAttempts.length = 1 ∧
    (∀ c ∈ w'.db.commands, StatusMatches c (attemptsOf w'.db c.commandId)) ∧
    ∀ a ∈ w'.db.executionAttempts,
      PassedBarriers (creation ++ execution) a.commandId a.startedAt := by
  have hrun : ((workerRun creation).bind fun w => (Run.exec workerProgram.worldStep w
      execution).map (·.db.executionAttempts.length)) = some 1 := by decide +kernel
  obtain ⟨w, hw, hrest⟩ := Option.bind_eq_some_iff.mp hrun
  obtain ⟨w', hw', hcount⟩ := Option.map_eq_some_iff.mp hrest
  obtain ⟨-, -, -, hstatus, hattempts⟩ := commands_lifeCycle hw hw'
  exact ⟨w, w', hw, hw', hcount, hstatus, fun a ha => (hattempts a ha).2⟩

/-! ## Calls to the executor -/

section Calls
variable {C : CommandId → Time → Prop} {w w' : WorkerWorld}

/-- The committed command has left `PENDING`. -/
def Settled (db : Database) (id : CommandId) : Prop :=
  ∃ c, db.getCommandById id = some c ∧ c.commandStatus ≠ .pending

/-- No legal transition leads back to `PENDING`. -/
theorem CommandEvolves.ne_pending {c c' : InterventionCommand} (h : CommandEvolves c c')
    (hne : c.commandStatus ≠ .pending) : c'.commandStatus ≠ .pending := by
  rcases Relation.ReflTransGen.cases_tail h.path with heq | ⟨s, -, hs⟩
  · rwa [heq]
  · intro hpending
    rw [hpending] at hs
    cases s <;> simp [canTransition, legalTransitions] at hs

theorem Settled.evolve {db db' : Database} {id : CommandId} (h : Settled db id)
    (hids : (db'.commands.map (·.commandId)).Nodup) (hevolve : CommandsEvolve db db') :
    Settled db' id := by
  obtain ⟨c, hget, hne⟩ := h
  obtain ⟨hmem, hid⟩ := Database.getCommandById_some hget
  obtain ⟨c', hc', hcc⟩ := hevolve c hmem
  have hid' : c'.commandId = id := by rw [hcc.payload]; exact hid
  refine ⟨c', ?_, hcc.ne_pending hne⟩
  have hfind : (db'.getCommandById id).isSome := by
    simpa [Database.getCommandById, List.find?_isSome] using ⟨c', hc', hid'⟩
  obtain ⟨x, hx⟩ := Option.isSome_iff_exists.mp hfind
  rw [hx, Database.eq_of_getCommandById hids hx hc' hid']

/-- What became of the transaction that called the executor for a command: it was rolled
back, it committed the end of the execution, or it is still executing. -/
def CallState (db : Database) (id : CommandId) (s : WorkerSession) : Prop :=
  s.proc = .rolledBack ∨ (s.proc = .committed ∧ Settled db id) ∨
    ∃ t p, s.proc = .execute id t p ∧ p ≠ .dispatch ∧ claimWrite id t ∈ s.pending

/-- Every call has a transaction, and only the last call of a command may have one that
was not rolled back. -/
structure CallsSettled (w : WorkerWorld) : Prop where
  state : ∀ x ∈ w.calls, ∃ s, w.sessions[x.1]? = some s ∧ CallState w.db x.2.commandId s
  earlier : w.calls.Pairwise fun x y => x.2.commandId = y.2.commandId →
    ∃ s, w.sessions[x.1]? = some s ∧ s.proc = .rolledBack

/-- The claim is among the uncommitted writes only from the dispatch on. -/
theorem ExecutePending.settled {db : Database} {id : CommandId} {t : Time} {ws : List Write}
    (h : ExecutePending C db id t .done ws) (hids : (db.commands.map (·.commandId)).Nodup)
    (hclaim : claimWrite id t ∈ ws) : Settled (ws.foldl Database.apply db) id := by
  cases h with
  | returned => simp at hclaim
  | closed _ htarget => rcases htarget with rfl | rfl <;> simp [claimWrite] at hclaim
  | @executed a res hclear ha =>
      obtain ⟨c, hget, hpending, -⟩ := hclear
      refine ⟨c.setStatus (finalStatus res) (finalReason res) (attemptEnd t res), ?_, ?_⟩
      · rw [Database.getCommandById, commands_executed hids hget hpending a res, List.find?_map]
        have hsame : ((fun x : InterventionCommand => decide (x.commandId = id)) ∘
            fun x : InterventionCommand => if x.commandId = id then
              x.setStatus (finalStatus res) (finalReason res) (attemptEnd t res) else x) =
            fun x => decide (x.commandId = id) := by
          funext x
          by_cases hx : x.commandId = id <;> simp [hx]
        rw [Database.getCommandById] at hget
        have hid : c.commandId = id := by simpa using List.find?_some hget
        rw [hsame, hget]
        simp [hid]
      · simp only [InterventionCommand.commandStatus_setStatus, finalStatus]
        split <;> simp

/-- What a step keeps of a session: once rolled back it stays so, and the state of its
call goes on. -/
def KeepsCalls (db db' : Database) (s s' : WorkerSession) : Prop :=
  (s.proc = .rolledBack → s'.proc = .rolledBack) ∧
    ∀ id, CallState db id s → CallState db' id s'

theorem KeepsCalls.refl {db db' : Database} {s s' : WorkerSession}
    (hset : ∀ id, Settled db id → Settled db' id) (hproc : s'.proc = s.proc)
    (hpend : s'.pending = s.pending) : KeepsCalls db db' s s' := by
  refine ⟨fun h => hproc.trans h, fun id h => ?_⟩
  unfold CallState at h ⊢
  rw [hproc, hpend]
  exact h.imp_right (Or.imp_left (And.imp_right (hset id)))

theorem KeepsCalls.onError {db : Database} (s : WorkerSession) :
    KeepsCalls db db s (.fresh s.proc.onError) := by
  refine ⟨fun h => by simp [h, WorkerProc.onError], fun id h => ?_⟩
  rcases h with h | ⟨h, hset⟩ | ⟨t, p, h, -⟩
  · exact .inl (by simp [h, WorkerProc.onError])
  · exact .inr (.inl ⟨by simp [h, WorkerProc.onError], hset⟩)
  · exact .inl (by simp [h, WorkerProc.onError])

/-- The state of its call goes on through every step of a session. -/
theorem WorkerStepped.keepsCalls {db : Database} {s : WorkerSession} {o : WorkerOutcome}
    (h : WorkerStepped C db s o) (hlocal : WorkerLocal C db s) (hstore : CommandStore C db) :
    match o with
    | .lock key next => KeepsCalls db db s (s.locked key next)
    | .write ws next => KeepsCalls db db s (s.wrote ws next)
    | .call _ next => KeepsCalls db db s (s.moved next)
    | .rollback next => KeepsCalls db db s (.fresh next)
    | .commit next => KeepsCalls db (s.pending.foldl Database.apply db) s (.fresh next) := by
  cases h with
  | rolledBack => exact ⟨fun _ => rfl, fun _ _ => .inl rfl⟩
  | created hproc hnil hvs => simp [KeepsCalls, CallState, hproc]
  | @executing id t p o' hproc ho =>
      cases ho with
      | locked =>
          simp only [Outcome.map]
          refine ⟨by simp [hproc], fun id' hcall => ?_⟩
          rcases hcall with h | ⟨h, -⟩ | ⟨t', p', h, -, hclaim⟩
          · simp [hproc] at h
          · simp [hproc] at h
          · rw [hproc] at h
            cases h
            exact .inr (.inr ⟨t, _, rfl, by simp, hclaim⟩)
      | @wrote p vs next hp hstart hcheck hdispatch hpend =>
          simp only [Outcome.map]
          refine ⟨by simp [hproc], fun id' hcall => ?_⟩
          rcases hcall with h | ⟨h, -⟩ | ⟨t', p', h, hp', hclaim⟩
          · simp [hproc] at h
          · simp [hproc] at h
          · rw [hproc] at h
            cases h
            refine .inr (.inr ⟨t, _, rfl, fun hn => ?_, List.mem_append_left _ hclaim⟩)
            have hp := hdispatch hn
            subst hp
            have hold : ExecutePending C db id t .claim s.pending := by
              simp only [WorkerLocal, hproc] at hlocal
              exact hlocal.1
            generalize s.pending = ws at hold hclaim
            cases hold
            simp at hclaim
      | called hid hpend =>
          simp only [Outcome.map]
          refine ⟨by simp [hproc], fun id' hcall => ?_⟩
          rcases hcall with h | ⟨h, -⟩ | ⟨t', p', h, hp', -⟩
          · simp [hproc] at h
          · simp [hproc] at h
          · rw [hproc] at h
            cases h
            exact absurd rfl hp'
  | committed hproc =>
      refine ⟨fun h => ?_, fun id hcall => ?_⟩
      · rcases hproc with hp | ⟨id, t, hp⟩ <;> simp [hp] at h
      · rcases hcall with h | ⟨h, -⟩ | ⟨t, p, h, -, hclaim⟩
        · rcases hproc with hp | ⟨id', t, hp⟩ <;> simp [hp] at h
        · rcases hproc with hp | ⟨id', t, hp⟩ <;> simp [hp] at h
        · rcases hproc with hp | ⟨id', t', hp⟩
          · simp [hp] at h
          · rw [hp] at h
            cases h
            have hold : ExecutePending C db id t .done s.pending := by
              simp only [WorkerLocal, hp] at hlocal
              exact hlocal.1
            exact .inr (.inl ⟨rfl, hold.settled hstore.ids hclaim⟩)

/-- A session of the world after a step, with what the step kept of it. -/
theorem sessions_keepCalls (h : workerProgram.Good (CommandStore C) (WorkerLocal C) w)
    {a : WorkerAction} (hg : Program.worldGuard (clearedGuard C) w a)
    (hstep : workerProgram.worldStep w a = some w') {j : ℕ} {s : WorkerSession}
    (hs : w.sessions[j]? = some s) :
    ∃ s', w'.sessions[j]? = some s' ∧ KeepsCalls w.db w'.db s s' := by
  have hstore := (workerInvariant.step h hg hstep).store
  have hevolve := workerGuarantee.step h hg hstep
  have hset : ∀ id, Settled w.db id → Settled w'.db id :=
    fun id hid => hid.evolve hstore.ids hevolve
  have hlocal : ∀ {i s}, w.sessions[i]? = some s → WorkerLocal C w.db s :=
    fun hi => h.session _ (List.mem_of_getElem? hi)
  -- a session other than the acting one is as it was
  have hother : ∀ {i : ℕ} {u : WorkerSession}, w.sessions[i]? = some u → ∀ {u' : WorkerSession},
      w'.sessions = w.sessions.set i u' → KeepsCalls w.db w'.db u u' →
      ∃ s', w'.sessions[j]? = some s' ∧ KeepsCalls w.db w'.db s s' := by
    intro i u hu u' hw' hkeep
    rw [hw', List.getElem?_set]
    by_cases hij : i = j
    · subst hij
      obtain rfl : u = s := Option.some.inj (hu.symm.trans hs)
      have hlt : i < w.sessions.length := (List.getElem?_eq_some_iff.mp hu).1
      exact ⟨u', by simp [hlt], hkeep⟩
    · exact ⟨s, by simp [hij, hs], .refl hset rfl rfl⟩
  cases Program.stepped hstep with
  | arrived harr hok _ =>
      refine ⟨s, ?_, .refl hset rfl rfl⟩
      have hlt : j < w.sessions.length := (List.getElem?_eq_some_iff.mp hs).1
      simpa [List.getElem?_append_left hlt] using hs
  | looked hi => exact hother hi rfl (.refl hset rfl rfl)
  | aborted hi => exact hother hi rfl (.onError _)
  | locked hi hp _ =>
      exact hother hi rfl (((hlocal hi).stepped (hg _ hi) hp).keepsCalls (hlocal hi) h.store)
  | wrote hi hp _ _ =>
      exact hother hi rfl (((hlocal hi).stepped (hg _ hi) hp).keepsCalls (hlocal hi) h.store)
  | raised hi _ _ => exact hother hi rfl (.onError _)
  | called hi hp =>
      exact hother hi rfl (((hlocal hi).stepped (hg _ hi) hp).keepsCalls (hlocal hi) h.store)
  | committed hi hp =>
      exact hother hi rfl (((hlocal hi).stepped (hg _ hi) hp).keepsCalls (hlocal hi) h.store)
  | rolledBack hi hp =>
      exact hother hi rfl (((hlocal hi).stepped (hg _ hi) hp).keepsCalls (hlocal hi) h.store)

/-- When the executor is called, every earlier call of the command was rolled back. -/
theorem CallsSettled.rolledBack_of_dispatch
    (h : workerProgram.Good (CommandStore C) (WorkerLocal C) w) (hcalls : CallsSettled w)
    {i : ℕ} {s : WorkerSession} {id : CommandId} {t : Time} (hs : w.sessions[i]? = some s)
    (hproc : s.proc = .execute id t .dispatch) :
    ∀ x ∈ w.calls, x.2.commandId = id →
      ∃ u, w.sessions[x.1]? = some u ∧ u.proc = .rolledBack := by
  intro x hx hid
  have hlocal := h.session s (List.mem_of_getElem? hs)
  simp only [WorkerLocal, hproc] at hlocal
  obtain ⟨hpend, hlock, -⟩ := hlocal
  have hpending : Claimable w.db id := by
    generalize s.pending = ws at hpend
    cases hpend with
    | dispatch hclear =>
        obtain ⟨c, hget, hstatus, -⟩ := hclear
        exact ⟨c, hget, hstatus⟩
  obtain ⟨u, hu, hstate⟩ := hcalls.state x hx
  rw [hid] at hstate
  rcases hstate with hrolled | ⟨-, c, hget, hne⟩ | ⟨t', p', hexec, hne, hclaim⟩
  · exact ⟨u, hu, hrolled⟩
  · obtain ⟨c', hget', hstatus⟩ := hpending
    rw [hget] at hget'
    cases hget'
    exact absurd hstatus hne
  · -- two executions of the command would both hold its lock
    exfalso
    have hlocal' := h.session u (List.mem_of_getElem? hu)
    simp only [WorkerLocal, hexec] at hlocal'
    have hlock' : LockKey.command id ∈ u.locks := by
      refine hlocal'.2.1 fun hstart => ?_
      have hnil := hlocal'.1.eq_nil (.inl hstart)
      simp [hnil] at hclaim
    by_cases hix : i = x.1
    · subst hix
      rw [hs] at hu
      cases hu
      rw [hproc] at hexec
      cases hexec
      exact hne rfl
    · exact (h.separated i x.1 s u hix hs hu).locks _ (hlock (by simp)) hlock'

theorem CallsSettled.step (h : workerProgram.Good (CommandStore C) (WorkerLocal C) w)
    (hcalls : CallsSettled w) {a : WorkerAction}
    (hg : Program.worldGuard (clearedGuard C) w a)
    (hstep : workerProgram.worldStep w a = some w') : CallsSettled w' := by
  have hkeep : ∀ {j s}, w.sessions[j]? = some s →
      ∃ s', w'.sessions[j]? = some s' ∧ KeepsCalls w.db w'.db s s' :=
    fun hs => sessions_keepCalls h hg hstep hs
  have hrolled : ∀ {j : ℕ},
      (∃ s : WorkerSession, w.sessions[j]? = some s ∧ s.proc = .rolledBack) →
      ∃ s : WorkerSession, w'.sessions[j]? = some s ∧ s.proc = .rolledBack := by
    rintro j ⟨s, hs, hp⟩
    obtain ⟨s', hs', hk⟩ := hkeep hs
    exact ⟨s', hs', hk.1 hp⟩
  have hstate : ∀ x ∈ w.calls, ∃ s, w'.sessions[x.1]? = some s ∧
      CallState w'.db x.2.commandId s := by
    intro x hx
    obtain ⟨s, hs, hcall⟩ := hcalls.state x hx
    obtain ⟨s', hs', hk⟩ := hkeep hs
    exact ⟨s', hs', hk.2 _ hcall⟩
  have hearlier := hcalls.earlier.imp fun hxy hid => hrolled (hxy hid)
  have hsame : w'.calls = w.calls → CallsSettled w' :=
    fun hc => ⟨by rw [hc]; exact hstate, by rw [hc]; exact hearlier⟩
  cases Program.stepped hstep with
  | @called i input s effect next hi hp =>
      have hlocal := h.session s (List.mem_of_getElem? hi)
      have hs := hlocal.stepped (hg s hi) hp
      generalize ho : Outcome.call effect next = o at hs
      cases hs with
      | @executing id t p o' hproc ho' =>
          cases ho' with
          | @called cmd hid hpend =>
              obtain ⟨rfl, rfl⟩ : effect = cmd ∧ next = .execute id t (.running cmd) := by
                cases ho
                exact ⟨rfl, rfl⟩
              have hlt : i < w.sessions.length := (List.getElem?_eq_some_iff.mp hi).1
              refine ⟨fun x hx => ?_, ?_⟩
              · rcases List.mem_append.mp hx with hx | hx
                · exact hstate x hx
                · obtain rfl := List.mem_singleton.mp hx
                  refine ⟨s.moved (.execute id t (.running effect)), by simp [hlt],
                    .inr (.inr ⟨t, _, by rw [hid]; rfl, by simp, ?_⟩)⟩
                  rw [hid]
                  show claimWrite id t ∈ s.pending
                  generalize s.pending = ws at hpend
                  cases hpend
                  exact List.mem_cons_self
              · refine List.pairwise_append.mpr ⟨hearlier, by simp, fun x hx y hy hxy => ?_⟩
                obtain rfl := List.mem_singleton.mp hy
                exact hrolled (hcalls.rolledBack_of_dispatch h hi hproc x hx (hxy.trans hid))
          | locked => cases ho
          | wrote => cases ho
      | _ => cases ho
  | _ => exact hsame rfl

/-- In every run, a call of the executor for a command is followed by another one only
after the transaction of the earlier call was rolled back. -/
theorem calls_rolledBack {as : List WorkerAction} {w : WorkerWorld} (h : workerRun as = some w) :
    w.calls.Pairwise fun x y => x.2.commandId = y.2.commandId →
      ∃ s, w.sessions[x.1]? = some s ∧ s.proc = .rolledBack := by
  let C : CommandId → Time → Prop := fun _ _ => True
  have hstart : workerProgram.Good (CommandStore C) (WorkerLocal C) ⟨{}, [], []⟩ ∧
      CallsSettled ⟨{}, [], []⟩ :=
    ⟨.empty ⟨by simp, by simp, by simp⟩, by simp, by simp⟩
  have hguard : ∀ (u : WorkerWorld) (a : WorkerAction),
      Program.worldGuard (clearedGuard C) u a := by
    intro u a
    cases a with
    | advance i input => exact fun _ _ _ _ _ _ => trivial
    | _ => exact trivial
  have hstep : ∀ (u : WorkerWorld) (a : WorkerAction) (u' : WorkerWorld),
      workerProgram.Good (CommandStore C) (WorkerLocal C) u ∧ CallsSettled u →
      workerProgram.worldStep u a = some u' →
      workerProgram.Good (CommandStore C) (WorkerLocal C) u' ∧ CallsSettled u' :=
    fun u a u' hu ha => ⟨workerInvariant.step hu.1 (hguard u a) ha,
      hu.2.step hu.1 (hguard u a) ha⟩
  exact (Run.invariant_exec hstep hstart h).2.earlier

open WorkerExample in
theorem calls_rolledBack_crash : ∃ w, workerRun (creation ++ crash) = some w ∧
    w.calls.length = 2 ∧ w.calls.Pairwise fun x y => x.2.commandId = y.2.commandId →
      ∃ s, w.sessions[x.1]? = some s ∧ s.proc = .rolledBack := by
  have hrun : (workerRun (creation ++ crash)).map (·.calls.length) = some 2 := by decide +kernel
  obtain ⟨w, hw, hcalls⟩ := Option.map_eq_some_iff.mp hrun
  exact ⟨w, hw, hcalls, calls_rolledBack hw⟩

open WorkerExample in
/-- A worker that dies after the call leaves the command `PENDING`; the next worker calls
the executor again. -/
theorem calls_not_atMostOnce : ¬ ∀ as w, workerRun as = some w → ∀ id : CommandId,
    (w.calls.filter (·.2.commandId = id)).length ≤ 1 := by
  intro h
  have hrun : (workerRun (creation ++ crash)).map
      (fun w => (w.calls.filter fun x => x.2.commandId = WorkerExample.id).length) = some 2 := by
    decide +kernel
  obtain ⟨w, hw, hcalls⟩ := Option.map_eq_some_iff.mp hrun
  have := h _ w hw WorkerExample.id
  omega

end Calls

end RevenueRecovery
