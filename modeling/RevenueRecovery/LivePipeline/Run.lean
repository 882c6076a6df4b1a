import RevenueRecovery.Degradation.Service
import RevenueRecovery.RootCause.Service
import RevenueRecovery.Services.Calls
import RevenueRecovery.Store

/-!
# The live pipeline

One background run follows each newly ingested event. Stages 2-4 recompute the window of
the event and commit. A trigger event then registers its attempt and goes through
prediction, decision, command and execution; a terminal event observes and attributes
every command of its attempt. Both commit once, and an error rolls everything since the
first commit back. Any number of runs interleave with each other and with ingestion.

## Main definitions
* `runAnalytics` : Stages 2-4 for an event.
* `LiveProc`, `liveStep` : a run as a transactional program.
* `liveProgram`, `liveRun` : ingestion and any interleaving of runs.
-/
namespace RevenueRecovery

open Transaction

/-! ## Stages 2-4 -/

/-- The snapshots of a window by segment, in order of first occurrence. -/
def groupBySegment (snapshots : List PaymentHealthSnapshot) : List (List PaymentHealthSnapshot) :=
  let keys := ((snapshots.map fun s => (s.segmentDimension, s.segmentValue)).reverse.dedup).reverse
  keys.map fun key => snapshots.filter fun s => (s.segmentDimension, s.segmentValue) = key

/-- A reconciliation run id that no stored history row has. -/
def newReconciliationRunId (tables : AnalyticsTables) : ℕ :=
  Table.maxOf (·.reconciliationRunId) tables.history + 1

/-- Stage 3 for the snapshots of the window, each segment in turn, stamped with the event. -/
def detectDegradation (order : ℕ → ℕ) (tables : AnalyticsTables) (windowStart : Time)
    (eventTimestamp : Time) : Except ServiceError AnalyticsTables :=
  let snapshots := Table.scan order (tables.snapshots.filter fun s =>
    windowStart ≤ s.windowStart ∧ s.windowEnd ≤ windowStart + Time.minutes 5)
  (groupBySegment snapshots).foldlM (fun tables segment =>
    processSnapshots tables segment eventTimestamp (newReconciliationRunId tables)) tables

/-- Stage 4 for every active episode. -/
def analyzeRootCauses (order : ℕ → ℕ) (events : List PaymentEvent) (tables : AnalyticsTables)
    (now : Time) : Except ServiceError AnalyticsTables :=
  (Table.scan order (tables.episodes.filter fun ep => ep.status = .active)).foldlM
    (fun tables ep => evaluateEpisode events tables ep now) tables

/-- Stages 2-4 for an event at the wall-clock time `now`. -/
def runAnalytics (order : ℕ → ℕ → ℕ) (db : Database) (e : PaymentEvent) (now : Time) :
    Except ServiceError AnalyticsTables := do
  let windowStart := Time.windowStart e.timestamp
  let tables := { db.analytics with
    snapshots := calculateAndSaveWindow db.events db.analytics.snapshots windowStart
      (windowStart + Time.minutes 5) }
  let tables ← detectDegradation (order 0) tables windowStart e.timestamp
  analyzeRootCauses (order 1) db.events tables now

/-! ## Runs -/

/-- The evaluation time of an event's run. -/
def tEval (e : PaymentEvent) : Time := max e.timestamp e.ingestedAt

/-- Where a run stands. A terminal event's run carries the commands it still has to settle,
each with its `asOf`. -/
inductive LiveProc
  | analytics (e : PaymentEvent)
  | analyticsStored (e : PaymentEvent)
  | start (e : PaymentEvent)
  | registered (e : PaymentEvent) (ref : AttemptRef)
  | trigger (e : PaymentEvent) (ref : AttemptRef) (p : CallProc)
  | settle (e : PaymentEvent) (queue : List (CommandId × Time))
  | settling (e : PaymentEvent) (commandId : CommandId) (asOf : Time)
      (queue : List (CommandId × Time)) (p : CallProc)
  | finish
  | finished
  | failed
deriving DecidableEq

/-- What the environment decides in one step of a run, and the wall-clock time. Stages 2-4
are one step: without `tables` it computes them from one store, with `tables` it leaves
what statements that interleave with other runs may leave. -/
structure LiveInput extends CallInput where
  now : Time := 0
  tables : Option AnalyticsTables := none

abbrev LiveOutcome := Outcome Write LockKey InterventionCommand LiveProc
abbrev LiveSession := Session Database Write LockKey LiveProc
abbrev LiveWorld := World Database Write LockKey InterventionCommand LiveProc
abbrev LiveAction := Action LiveInput PaymentEvent

/-- The registry row of a trigger event. -/
def registration (e : PaymentEvent) : Except ServiceError RegisteredAttempt := do
  let ref ← AttemptRef.forTriggerEvent e
  return { paymentAttemptId := ref.paymentAttemptId
           sourceSystem := ref.sourceSystem
           providerReference := ref.providerReference
           triggerEventId := e.eventId }

/-- The commands of the attempt, whatever their provider, with the times they are settled
as of. -/
def settlementQueue (r : Reads) (e : PaymentEvent) (paymentAttemptId : String) :
    List (CommandId × Time) :=
  (r.rows 0 (·.commands) fun c => c.paymentAttemptId = paymentAttemptId).map fun c =>
    (c.commandId, max e.ingestedAt c.updatedAt)

/-- How a trigger event's run goes on after a call. -/
def afterTriggerCall (e : PaymentEvent) (ref : AttemptRef) : CallResult → LiveProc
  | .prediction p =>
      if p.failureProbability.any (· > 1 / 2) then .trigger e ref (.decide ref (tEval e))
      else .finish
  | .decision d =>
      if d.decisionType = .act then
        .trigger e ref (.create d defaultExpiresInSeconds (tEval e))
      else .finish
  | .command c => .trigger e ref (.execute c.commandId (tEval e) .start)
  | _ => .finish

/-- How a terminal event's run goes on after a call. -/
def afterSettlementCall (e : PaymentEvent) (commandId : CommandId) (asOf : Time)
    (queue : List (CommandId × Time)) : CallResult → LiveProc
  | .observation _ => .settling e commandId asOf queue (.attributePayment commandId asOf)
  | _ => .settle e queue

/-- An error of a service fails the run. -/
def orFail : Except ServiceError LiveOutcome → LiveOutcome
  | .ok o => o
  | .error _ => .rollback .failed

section Program
variable (policy : InterventionPolicy)

/-- One step of a run. -/
def liveStep (p : LiveProc) (input : LiveInput) (reads : ℕ → Database) (now : Database) :
    Option LiveOutcome :=
  match p with
  | .analytics e => some <| orFail do
      let tables ← match input.tables with
        | some tables => pure tables
        | none => runAnalytics input.order now e input.now
      return .write [.setAnalytics tables] (.analyticsStored e)
  | .analyticsStored e => some (.commit (.start e))
  | .start e =>
      match resolvePipelineAttempt e with
      | none => some (.write [] .finish)
      | some ⟨.trigger, ref⟩ => some <| orFail do
          let row ← registration e
          return .write [.registerAttempt row] (.registered e ref)
      | some ⟨.terminal, ref⟩ =>
          some (.write [] (.settle e
            (settlementQueue (input.toCallInput.reads reads) e ref.paymentAttemptId)))
  | .registered e ref =>
      match (AttemptRef.forTriggerEvent e).bind (reads 0).require with
      | .ok _ => some (.write [] (.trigger e ref (.predict ref (tEval e))))
      | .error .attemptProviderConflict => some (.write [] .finish)
      | .error _ => some (.rollback .failed)
  | .trigger e ref (.returned result) => some (.write [] (afterTriggerCall e ref result))
  | .trigger e ref p => some <| orFail <|
      (callStep deterministicBaselineModel policy input.toCallInput reads now p).map
        (·.map (.trigger e ref))
  | .settle _ [] => some (.write [] .finish)
  | .settle e ((id, asOf) :: queue) =>
      some (.write [] (.settling e id asOf queue (.observe id asOf)))
  | .settling e id asOf queue (.returned result) =>
      some (.write [] (afterSettlementCall e id asOf queue result))
  | .settling e id asOf queue p => some <| orFail <|
      (callStep deterministicBaselineModel policy input.toCallInput reads now p).map
        (·.map (.settling e id asOf queue))
  | .finish => some (.commit .finished)
  | .finished => none
  | .failed => none

/-- A run that dies or fails is rolled back to its last commit. -/
def LiveProc.onError : LiveProc → LiveProc
  | .finished => .finished
  | _ => .failed

/-- The run of a newly ingested event: PayPal events skip Stages 2-4, and those that
neither start nor resolve an attempt have no run. -/
def pipelineRuns (e : PaymentEvent) : List LiveProc :=
  if e.isPaypal then if (resolvePipelineAttempt e).isSome then [.start e] else []
  else [.analytics e]

def liveProgram :
    Program Database Write LockKey InterventionCommand LiveProc LiveInput PaymentEvent where
  apply := Database.apply
  violates := Database.violates
  clashes := Write.clashes
  clashes_symm := Write.clashes_symm
  step := liveStep policy
  onError := LiveProc.onError
  arrive e _ := some ([.insertEvent e], pipelineRuns e)

/-- The runs of the live pipeline from an empty store. -/
def liveRun (as : List LiveAction) : Option LiveWorld :=
  Run.exec (liveProgram policy).worldStep ⟨{}, [], []⟩ as

end Program

/-! ## Steps -/

section Steps
variable {policy : InterventionPolicy} {db : Database} {s : LiveSession} {input : LiveInput}
  {o : LiveOutcome}

@[simp] theorem liveProgram_apply : (liveProgram policy).apply = Database.apply := rfl
@[simp] theorem liveProgram_violates : (liveProgram policy).violates = Database.violates := rfl
@[simp] theorem liveProgram_clashes : (liveProgram policy).clashes = Write.clashes := rfl

theorem liveProgram_view (db : Database) (s : LiveSession) :
    (liveProgram policy).view db s = s.pending.foldl Database.apply db := rfl

/-- A run begins with Stages 2-4, or with the stages of the attempt of a PayPal event. -/
theorem pipelineRuns_cases {e : PaymentEvent} {p : LiveProc} (h : p ∈ pipelineRuns e) :
    (e.isPaypal = true ∧ p = .start e) ∨ (e.isPaypal = false ∧ p = .analytics e) := by
  unfold pipelineRuns at h
  split_ifs at h with hpaypal hattempt
  · exact .inl ⟨hpaypal, List.mem_singleton.mp h⟩
  · cases h
  · exact .inr ⟨by simpa using hpaypal, List.mem_singleton.mp h⟩

theorem liveProgram_arrive {e : PaymentEvent} {ws : List Write} {ps : List LiveProc}
    (h : (liveProgram policy).arrive e db = some (ws, ps)) :
    ws = [.insertEvent e] ∧ ps = pipelineRuns e := by
  have heq : ([Write.insertEvent e], pipelineRuns e) = (ws, ps) := Option.some.inj h
  cases heq
  exact ⟨rfl, rfl⟩

/-- The call a run is in, and where the run stands when the call stands elsewhere. -/
def LiveProc.call? : LiveProc → Option (CallProc × (CallProc → LiveProc))
  | .trigger e ref p => some (p, .trigger e ref)
  | .settling e id asOf queue p => some (p, .settling e id asOf queue)
  | _ => none

/-- What one step of a run can be. -/
inductive LiveStepped (policy : InterventionPolicy) (db : Database) (s : LiveSession)
    (input : LiveInput) : LiveOutcome → Prop
  | failed : LiveStepped policy db s input (.rollback .failed)
  | analytics {e tables} (hproc : s.proc = .analytics e)
      (htables : match input.tables with
        | some t => t = tables
        | none => runAnalytics input.order ((liveProgram policy).view db s) e input.now =
            .ok tables) :
      LiveStepped policy db s input (.write [.setAnalytics tables] (.analyticsStored e))
  | analyticsStored {e} (hproc : s.proc = .analyticsStored e) :
      LiveStepped policy db s input (.commit (.start e))
  | noAttempt {e} (hproc : s.proc = .start e) (h : resolvePipelineAttempt e = none) :
      LiveStepped policy db s input (.write [] .finish)
  | register {e ref row} (hproc : s.proc = .start e)
      (h : resolvePipelineAttempt e = some ⟨.trigger, ref⟩) (hrow : registration e = .ok row) :
      LiveStepped policy db s input (.write [.registerAttempt row] (.registered e ref))
  | readCommands {e ref} (hproc : s.proc = .start e)
      (h : resolvePipelineAttempt e = some ⟨.terminal, ref⟩) :
      LiveStepped policy db s input (.write [] (.settle e (settlementQueue
        (input.toCallInput.reads ((liveProgram policy).reads db s)) e ref.paymentAttemptId)))
  | registered {e ref} (hproc : s.proc = .registered e ref) :
      LiveStepped policy db s input (.write [] (.trigger e ref (.predict ref (tEval e))))
  | conflict {e ref} (hproc : s.proc = .registered e ref) :
      LiveStepped policy db s input (.write [] .finish)
  | triggerReturned {e ref result} (hproc : s.proc = .trigger e ref (.returned result)) :
      LiveStepped policy db s input (.write [] (afterTriggerCall e ref result))
  | settleNil {e} (hproc : s.proc = .settle e []) :
      LiveStepped policy db s input (.write [] .finish)
  | settleCons {e id asOf queue} (hproc : s.proc = .settle e ((id, asOf) :: queue)) :
      LiveStepped policy db s input (.write [] (.settling e id asOf queue (.observe id asOf)))
  | settlingReturned {e id asOf queue result}
      (hproc : s.proc = .settling e id asOf queue (.returned result)) :
      LiveStepped policy db s input (.write [] (afterSettlementCall e id asOf queue result))
  | called {p f o'} (hproc : s.proc.call? = some (p, f)) (hp : ∀ result, p ≠ .returned result)
      (h : CallStepped deterministicBaselineModel policy input.toCallInput
        ((liveProgram policy).reads db s) ((liveProgram policy).view db s) p o') :
      LiveStepped policy db s input (o'.map f)
  | finish (hproc : s.proc = .finish) : LiveStepped policy db s input (.commit .finished)

private theorem orFail_map {r : Except ServiceError CallOutcome} {f : CallProc → LiveProc}
    (h : some (orFail (r.map (·.map f))) = some o) :
    o = .rollback .failed ∨ ∃ o', r = .ok o' ∧ o = o'.map f := by
  cases r with
  | error e => exact .inl (Option.some.inj h).symm
  | ok o' => exact .inr ⟨o', rfl, (Option.some.inj h).symm⟩

theorem liveStepped (h : (liveProgram policy).outcome db s input = some o) :
    LiveStepped policy db s input o := by
  have hstep : liveStep policy s.proc input ((liveProgram policy).reads db s)
    ((liveProgram policy).view db s) = some o := h
  cases hp : s.proc with
  | analytics e =>
      simp only [hp, liveStep, Option.some.injEq] at hstep
      cases ht : input.tables with
      | some tables =>
          simp only [ht, bind, Except.bind, pure, Except.pure, orFail] at hstep
          subst hstep
          exact .analytics hp (by simp [ht])
      | none =>
          simp only [ht, bind, Except.bind] at hstep
          cases hr : runAnalytics input.order ((liveProgram policy).view db s) e input.now with
          | error err =>
              simp only [hr, orFail] at hstep
              subst hstep
              exact .failed
          | ok tables =>
              simp only [hr, pure, Except.pure, orFail] at hstep
              subst hstep
              exact .analytics hp (by simp [ht, hr])
  | analyticsStored e =>
      simp only [hp, liveStep, Option.some.injEq] at hstep
      subst hstep
      exact .analyticsStored hp
  | start e =>
      simp only [hp, liveStep] at hstep
      cases hr : resolvePipelineAttempt e with
      | none =>
          simp only [hr, Option.some.injEq] at hstep
          subst hstep
          exact .noAttempt hp hr
      | some a =>
          obtain ⟨role, ref⟩ := a
          cases role with
          | trigger =>
              simp only [hr, bind, Except.bind, Option.some.injEq] at hstep
              cases hrow : registration e with
              | error err =>
                  simp only [hrow, orFail] at hstep
                  subst hstep
                  exact .failed
              | ok row =>
                  simp only [hrow, pure, Except.pure, orFail] at hstep
                  subst hstep
                  exact .register hp hr hrow
          | terminal =>
              simp only [hr, Option.some.injEq] at hstep
              subst hstep
              exact .readCommands hp hr
  | registered e ref =>
      simp only [hp, liveStep] at hstep
      split at hstep <;> obtain rfl := Option.some.inj hstep
      · exact .registered hp
      · exact .conflict hp
      · exact .failed
  | trigger e ref p =>
      by_cases hret : ∃ result, p = .returned result
      · obtain ⟨result, rfl⟩ := hret
        simp only [hp, liveStep, Option.some.injEq] at hstep
        subst hstep
        exact .triggerReturned hp
      · have hcall : some (orFail ((callStep deterministicBaselineModel policy input.toCallInput
            ((liveProgram policy).reads db s) ((liveProgram policy).view db s) p).map
            (·.map (.trigger e ref)))) = some o := by
          rw [hp] at hstep
          cases p <;> first | exact hstep | exact absurd ⟨_, rfl⟩ hret
        rcases orFail_map hcall with rfl | ⟨o', ho', rfl⟩
        · exact .failed
        · exact .called (by rw [hp]; rfl) (fun result hr => hret ⟨result, hr⟩) (callStepped ho')
  | settle e queue =>
      cases queue with
      | nil =>
          simp only [hp, liveStep, Option.some.injEq] at hstep
          subst hstep
          exact .settleNil hp
      | cons x queue =>
          simp only [hp, liveStep, Option.some.injEq] at hstep
          subst hstep
          exact .settleCons hp
  | settling e id asOf queue p =>
      by_cases hret : ∃ result, p = .returned result
      · obtain ⟨result, rfl⟩ := hret
        simp only [hp, liveStep, Option.some.injEq] at hstep
        subst hstep
        exact .settlingReturned hp
      · have hcall : some (orFail ((callStep deterministicBaselineModel policy input.toCallInput
            ((liveProgram policy).reads db s) ((liveProgram policy).view db s) p).map
            (·.map (.settling e id asOf queue)))) = some o := by
          rw [hp] at hstep
          cases p <;> first | exact hstep | exact absurd ⟨_, rfl⟩ hret
        rcases orFail_map hcall with rfl | ⟨o', ho', rfl⟩
        · exact .failed
        · exact .called (by rw [hp]; rfl) (fun result hr => hret ⟨result, hr⟩) (callStepped ho')
  | finish =>
      simp only [hp, liveStep, Option.some.injEq] at hstep
      subst hstep
      exact .finish hp
  | finished => simp [hp, liveStep] at hstep
  | failed => simp [hp, liveStep] at hstep

/-- The unique constraints hold in every store the runs commit, and every pending row can
be committed without breaking one. -/
theorem liveRun_met {as : List LiveAction} {w : LiveWorld} (h : liveRun policy as = some w) :
    Program.Constraints.Met (liveProgram policy) Unique w :=
  .exec (Database.constraints rfl rfl rfl) (.empty .empty) h

end Steps

end RevenueRecovery
