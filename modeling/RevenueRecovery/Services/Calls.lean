import RevenueRecovery.Attribution.Service
import RevenueRecovery.Execution.Observation
import RevenueRecovery.Execution.Service
import RevenueRecovery.Intervention.Service

/-!
# Stages 5-8: the service calls as transactional steps

A call of a Stage 5-8 service reads, waits for its advisory locks and writes inside the
transaction of its caller. `callStep` cuts each call at its locks and writes; the writes of
one kind come from one place (`callStep_insertCommand` and its siblings).

## Main definitions
* `CallProc` : where a call stands; `CallResult` : what it returns.
* `CallInput` : what the environment decides in one step.
* `callStep` : one step of a call.
-/
namespace RevenueRecovery

open Transaction

/-- What a call returns to its caller. -/
inductive CallResult
  | prediction (p : FailurePrediction)
  | decision (d : InterventionDecision)
  | command (c : InterventionCommand)
  | executed
  | observation (o : PaymentOutcomeObservation)
  | attribution (a : CounterfactualAttribution)
deriving DecidableEq

/-- Where a call stands. -/
inductive CallProc
  | predict (ref : AttemptRef) (t : Time)
  | predictLocked (ref : AttemptRef) (t : Time)
      (inputs : PredictionStatus × Option FeatureSnapshot)
  | decide (ref : AttemptRef) (tDecide : Time)
  | decideLocked (ctx : DecisionContext)
  | decideAdmit (ctx : DecisionContext) (verdict : Verdict)
  | create (decision : InterventionDecision) (expiresInSeconds : ℤ) (now : Time)
  | execute (commandId : CommandId) (claimTime : Time) (p : ExecuteProc)
  | observe (commandId : CommandId) (asOf : Time)
  | attributePayment (commandId : CommandId) (asOf : Time)
  | attributeLocked (commandId : CommandId) (asOf : Time)
  | returned (result : CallResult)
deriving DecidableEq

abbrev CallOutcome := Outcome Write LockKey InterventionCommand CallProc

/-- What the environment decides in one step: the physical order in which the statements
return unsorted rows, the order of the string forms of episode ids, and what the executor
returns; it raises when there is no result. -/
structure CallInput where
  order : ℕ → ℕ → ℕ := fun _ i => i
  episodeOrder : EpisodeId → ℕ := fun _ => 0
  result : Option ExecutionResult := none

namespace CallInput

/-- The reads of a step under this input. -/
def reads (input : CallInput) (db : ℕ → Database) : Reads := ⟨db, input.order, input.episodeOrder⟩

@[simp] theorem db_reads (input : CallInput) (db : ℕ → Database) : (input.reads db).db = db := rfl

end CallInput

section Step
variable (model : FailurePredictionModel) (policy : InterventionPolicy)

/-- One step of a call; an error is raised to the caller. -/
def callStep (input : CallInput) (db : ℕ → Database) (now : Database) :
    CallProc → Except ServiceError CallOutcome
  | .predict ref t => do
      match ← orchestratePrediction model (input.reads db) ref t with
      | .inl p => return .write [] (.returned (.prediction p))
      | .inr inputs => return .lock (.version ref.paymentAttemptId) (.predictLocked ref t inputs)
  | .predictLocked ref t inputs =>
      let p := newPrediction model (db 0) ref t inputs
      .ok (.write [.appendPrediction p] (.returned (.prediction p)))
  | .decide ref t => do
      match ← decideUpstream policy (input.reads db) ref t with
      | .inl d => return .write [] (.returned (.decision d))
      | .inr ctx => return .lock (.version ref.paymentAttemptId) (.decideLocked ctx)
  | .decideLocked ctx =>
      match decideLocked policy (input.reads db) ctx with
      | .stored d => .ok (.write [] (.returned (.decision d)))
      | .append d => .ok (.write [.appendDecision d] (.returned (.decision d)))
      | .tentativeAct verdict => .ok (.lock .globalRateLimit (.decideAdmit ctx verdict))
  | .decideAdmit ctx verdict =>
      let d := decideAdmitted policy (input.reads db) ctx verdict
      .ok (.write [.appendDecision d] (.returned (.decision d)))
  | .create d expiresInSeconds t => do
      match ← createCommand (input.reads db) d expiresInSeconds t with
      | .inl c => return .write [] (.returned (.command c))
      | .inr c => return .write [.insertCommand c] (.returned (.command c))
  | .execute _ _ .done => .ok (.write [] (.returned .executed))
  | .execute id t p =>
      (executeStep id t (input.reads db) now input.result p).map (·.map (.execute id t))
  | .observe id asOf => do
      let o ← observe (input.reads db) id asOf
      return .write [.insertObservation o] (.returned (.observation o))
  | .attributePayment id asOf => .ok (.lock (.attribution id) (.attributeLocked id asOf))
  | .attributeLocked id asOf => do
      match ← attributePaymentIntervention (input.reads db) id asOf with
      | .inl a => return .write [] (.returned (.attribution a))
      | .inr a => return .write [.appendAttribution a] (.returned (.attribution a))
  | .returned result => .ok (.write [] (.returned result))

end Step

/-! ## Where writes come from -/

section Origin
variable {model : FailurePredictionModel} {policy : InterventionPolicy} {input : CallInput}
  {db : ℕ → Database} {now : Database} {p : CallProc} {o : CallOutcome}

/-- What one step of a call can be. -/
inductive CallStepped (model : FailurePredictionModel) (policy : InterventionPolicy)
    (input : CallInput) (db : ℕ → Database) (now : Database) :
    CallProc → CallOutcome → Prop
  | predictStored {ref t row} (h : orchestratePrediction model (input.reads db) ref t = .ok (.inl row)) :
      CallStepped model policy input db now (.predict ref t)
        (.write [] (.returned (.prediction row)))
  | predictLock {ref t inputs}
      (h : orchestratePrediction model (input.reads db) ref t = .ok (.inr inputs)) :
      CallStepped model policy input db now (.predict ref t)
        (.lock (.version ref.paymentAttemptId) (.predictLocked ref t inputs))
  | predicted {ref t inputs} :
      CallStepped model policy input db now (.predictLocked ref t inputs)
        (.write [.appendPrediction (newPrediction model (db 0) ref t inputs)]
          (.returned (.prediction (newPrediction model (db 0) ref t inputs))))
  | decideStored {ref t d} (h : decideUpstream policy (input.reads db) ref t = .ok (.inl d)) :
      CallStepped model policy input db now (.decide ref t)
        (.write [] (.returned (.decision d)))
  | decideLock {ref t ctx} (h : decideUpstream policy (input.reads db) ref t = .ok (.inr ctx)) :
      CallStepped model policy input db now (.decide ref t)
        (.lock (.version ref.paymentAttemptId) (.decideLocked ctx))
  | lockedStored {ctx d} (h : decideLocked policy (input.reads db) ctx = .stored d) :
      CallStepped model policy input db now (.decideLocked ctx)
        (.write [] (.returned (.decision d)))
  | lockedAppend {ctx d} (h : decideLocked policy (input.reads db) ctx = .append d) :
      CallStepped model policy input db now (.decideLocked ctx)
        (.write [.appendDecision d] (.returned (.decision d)))
  | lockedAct {ctx verdict} (h : decideLocked policy (input.reads db) ctx = .tentativeAct verdict) :
      CallStepped model policy input db now (.decideLocked ctx)
        (.lock .globalRateLimit (.decideAdmit ctx verdict))
  | admitted {ctx verdict} :
      CallStepped model policy input db now (.decideAdmit ctx verdict)
        (.write [.appendDecision (decideAdmitted policy (input.reads db) ctx verdict)]
          (.returned (.decision (decideAdmitted policy (input.reads db) ctx verdict))))
  | createExisting {d e t c} (h : createCommand (input.reads db) d e t = .ok (.inl c)) :
      CallStepped model policy input db now (.create d e t)
        (.write [] (.returned (.command c)))
  | created {d e t c} (h : createCommand (input.reads db) d e t = .ok (.inr c)) :
      CallStepped model policy input db now (.create d e t)
        (.write [.insertCommand c] (.returned (.command c)))
  | executeDone {id t} :
      CallStepped model policy input db now (.execute id t .done)
        (.write [] (.returned .executed))
  | executing {id t q o'} (hq : q ≠ .done)
      (h : executeStep id t (input.reads db) now input.result q = .ok o') :
      CallStepped model policy input db now (.execute id t q) (o'.map (.execute id t))
  | observed {id asOf row} (h : observe (input.reads db) id asOf = .ok row) :
      CallStepped model policy input db now (.observe id asOf)
        (.write [.insertObservation row] (.returned (.observation row)))
  | attributeLock {id asOf} :
      CallStepped model policy input db now (.attributePayment id asOf)
        (.lock (.attribution id) (.attributeLocked id asOf))
  | attributeStored {id asOf a}
      (h : attributePaymentIntervention (input.reads db) id asOf = .ok (.inl a)) :
      CallStepped model policy input db now (.attributeLocked id asOf)
        (.write [] (.returned (.attribution a)))
  | attributed {id asOf a}
      (h : attributePaymentIntervention (input.reads db) id asOf = .ok (.inr a)) :
      CallStepped model policy input db now (.attributeLocked id asOf)
        (.write [.appendAttribution a] (.returned (.attribution a)))
  | returned {result} :
      CallStepped model policy input db now (.returned result) (.write [] (.returned result))

theorem callStepped (h : callStep model policy input db now p = .ok o) :
    CallStepped model policy input db now p o := by
  cases p with
  | predict ref t =>
      simp only [callStep, bind, Except.bind, pure, Except.pure] at h
      split at h
      · cases h
      · rename_i res hres
        cases res <;> cases h
        · exact .predictStored hres
        · exact .predictLock hres
  | predictLocked ref t inputs => cases h; exact .predicted
  | decide ref t =>
      simp only [callStep, bind, Except.bind, pure, Except.pure] at h
      split at h
      · cases h
      · rename_i res hres
        cases res <;> cases h
        · exact .decideStored hres
        · exact .decideLock hres
  | decideLocked ctx =>
      simp only [callStep] at h
      split at h <;> cases h
      · exact .lockedStored ‹_›
      · exact .lockedAppend ‹_›
      · exact .lockedAct ‹_›
  | decideAdmit ctx verdict => cases h; exact .admitted
  | create d e t =>
      simp only [callStep, bind, Except.bind, pure, Except.pure] at h
      split at h
      · cases h
      · rename_i res hres
        cases res <;> cases h
        · exact .createExisting hres
        · exact .created hres
  | execute id t q =>
      by_cases hq : q = .done
      · subst hq
        cases h
        exact .executeDone
      · have hstep : (executeStep id t (input.reads db) now input.result q).map
            (·.map (.execute id t)) = .ok o := by
          simpa only [callStep, hq] using h
        cases hres : executeStep id t (input.reads db) now input.result q with
        | error e => simp [hres, Except.map] at hstep
        | ok o' =>
            obtain rfl : o'.map (.execute id t) = o := by simpa [hres, Except.map] using hstep
            exact .executing hq hres
  | observe id asOf =>
      simp only [callStep, bind, Except.bind, pure, Except.pure] at h
      split at h
      · cases h
      · cases h
        exact .observed ‹_›
  | attributePayment id asOf => cases h; exact .attributeLock
  | attributeLocked id asOf =>
      simp only [callStep, bind, Except.bind, pure, Except.pure] at h
      split at h
      · cases h
      · rename_i res hres
        cases res <;> cases h
        · exact .attributeStored hres
        · exact .attributed hres
  | returned result => cases h; exact .returned

/-- The listed steps are the steps of a call. -/
theorem CallStepped.callStep_eq (h : CallStepped model policy input db now p o) :
    callStep model policy input db now p = .ok o := by
  cases h with
  | @executing id t q o' hq hstep =>
      have heq : callStep model policy input db now (.execute id t q) =
          (executeStep id t (input.reads db) now input.result q).map (·.map (.execute id t)) := by
        cases q <;> first | rfl | exact absurd rfl hq
      rw [heq, hstep]
      rfl
  | predictStored h => simp [callStep, h, bind, Except.bind, pure, Except.pure]
  | predictLock h => simp [callStep, h, bind, Except.bind, pure, Except.pure]
  | decideStored h => simp [callStep, h, bind, Except.bind, pure, Except.pure]
  | decideLock h => simp [callStep, h, bind, Except.bind, pure, Except.pure]
  | lockedStored h => simp [callStep, h]
  | lockedAppend h => simp [callStep, h]
  | lockedAct h => simp [callStep, h]
  | createExisting h => simp [callStep, h, bind, Except.bind, pure, Except.pure]
  | created h => simp [callStep, h, bind, Except.bind, pure, Except.pure]
  | observed h => simp [callStep, h, bind, Except.bind, pure, Except.pure]
  | attributeStored h => simp [callStep, h, bind, Except.bind, pure, Except.pure]
  | attributed h => simp [callStep, h, bind, Except.bind, pure, Except.pure]
  | _ => rfl
/-- The write belongs to the execution of this command. -/
def Write.ofExecution (id : CommandId) : Write → Prop
  | .updateCommandStatus id' _ _ _ _ => id' = id
  | .insertExecutionAttempt _ => True
  | _ => False

theorem executeStep_write {id : CommandId} {t : Time} {r : Reads} {result : Option ExecutionResult}
    {q next : ExecuteProc} {ws : List Write}
    (h : executeStep id t r now result q = .ok (.write ws next)) :
    ∀ w ∈ ws, w.ofExecution id := by
  cases q with
  | start => simp [executeStep] at h
  | check =>
      simp only [executeStep] at h
      cases hc : executeCheck r id t with
      | error e => simp [hc, Except.map] at h
      | ok q =>
          obtain ⟨rfl, -⟩ : [] = ws ∧ q = next := by simpa [hc, Except.map] using h
          simp
  | close target reason =>
      obtain ⟨rfl, -⟩ := Outcome.write.inj (Except.ok.inj h)
      simp [Write.ofExecution]
  | claim =>
      obtain ⟨rfl, -⟩ := Outcome.write.inj (Except.ok.inj h)
      simp [Write.ofExecution]
  | dispatch =>
      simp only [executeStep] at h
      split at h <;> cases h
  | running cmd =>
      simp only [executeStep] at h
      split at h <;> cases h
      simp [Write.ofExecution]
  | finalize res =>
      obtain ⟨rfl, -⟩ := Outcome.write.inj (Except.ok.inj h)
      simp [Write.ofExecution]
  | done =>
      obtain ⟨rfl, -⟩ := Outcome.write.inj (Except.ok.inj h)
      simp

/-- The one step each write comes from. -/
def CallStepped.Origin (model : FailurePredictionModel) (policy : InterventionPolicy)
    (input : CallInput) (db : ℕ → Database) (p : CallProc) : Write → Prop
  | .appendPrediction row => ∃ ref t inputs, p = .predictLocked ref t inputs ∧
      row = newPrediction model (db 0) ref t inputs
  | .appendDecision d => (∃ ctx, p = .decideLocked ctx ∧
        decideLocked policy (input.reads db) ctx = .append d) ∨
      ∃ ctx verdict, p = .decideAdmit ctx verdict ∧
        d = decideAdmitted policy (input.reads db) ctx verdict
  | .insertCommand c => ∃ d e t, p = .create d e t ∧
      createCommand (input.reads db) d e t = .ok (.inr c)
  | .updateCommandStatus id _ _ _ _ => ∃ t q, p = .execute id t q
  | .insertExecutionAttempt _ => ∃ id t q, p = .execute id t q
  | .insertObservation row => ∃ id asOf, p = .observe id asOf ∧
      observe (input.reads db) id asOf = .ok row
  | .appendAttribution a => ∃ id asOf, p = .attributeLocked id asOf ∧
      attributePaymentIntervention (input.reads db) id asOf = .ok (.inr a)
  | .insertEvent _ | .setAnalytics _ | .registerAttempt _ => False

theorem CallStepped.origin {ws : List Write} {next : CallProc}
    (h : CallStepped model policy input db now p (.write ws next)) {w : Write} (hw : w ∈ ws) :
    CallStepped.Origin model policy input db p w := by
  generalize ho : Outcome.write ws next = o at h
  cases h with
  | @executing id t q o' hq hstep =>
      cases o' with
      | write vs next' =>
          obtain ⟨rfl, -⟩ := Outcome.write.inj ho
          have hex := executeStep_write hstep w hw
          cases w <;> simp_all [Write.ofExecution, CallStepped.Origin]
      | _ => cases ho
  | predicted =>
      cases ho
      obtain rfl := List.mem_singleton.mp hw
      exact ⟨_, _, _, rfl, rfl⟩
  | lockedAppend hd =>
      cases ho
      obtain rfl := List.mem_singleton.mp hw
      exact .inl ⟨_, rfl, hd⟩
  | admitted =>
      cases ho
      obtain rfl := List.mem_singleton.mp hw
      exact .inr ⟨_, _, rfl, rfl⟩
  | created hc =>
      cases ho
      obtain rfl := List.mem_singleton.mp hw
      exact ⟨_, _, _, rfl, hc⟩
  | observed hrow =>
      cases ho
      obtain rfl := List.mem_singleton.mp hw
      exact ⟨_, _, rfl, hrow⟩
  | attributed ha =>
      cases ho
      obtain rfl := List.mem_singleton.mp hw
      exact ⟨_, _, rfl, ha⟩
  | predictLock => cases ho
  | decideLock => cases ho
  | lockedAct => cases ho
  | attributeLock => cases ho
  | _ => cases ho; simp at hw

/-- A call never ends the transaction it runs in. -/
theorem CallStepped.inside (h : CallStepped model policy input db now p o) :
    (∀ next, o ≠ .commit next) ∧ ∀ next, o ≠ .rollback next := by
  cases h with
  | @executing id t q o' hq hstep =>
      cases q with
      | check =>
          simp only [executeStep] at hstep
          cases hc : executeCheck (input.reads db) id t with
          | error e => simp [hc, Except.map] at hstep
          | ok next' =>
              simp only [hc, Except.map, Except.ok.injEq] at hstep
              subst hstep
              exact ⟨fun _ => by simp [Outcome.map], fun _ => by simp [Outcome.map]⟩
      | dispatch =>
          simp only [executeStep] at hstep
          split at hstep <;> cases hstep
          exact ⟨fun _ => by simp [Outcome.map], fun _ => by simp [Outcome.map]⟩
      | running cmd =>
          simp only [executeStep] at hstep
          split at hstep <;> cases hstep
          exact ⟨fun _ => by simp [Outcome.map], fun _ => by simp [Outcome.map]⟩
      | _ =>
          obtain rfl := Except.ok.inj hstep
          exact ⟨fun _ => by simp [Outcome.map], fun _ => by simp [Outcome.map]⟩
  | _ => exact ⟨fun _ => by simp, fun _ => by simp⟩

/-- A step appends no decision, or one of the attempt of its context. An `ACT` decision is
appended under the global lock, below the rate limit. -/
theorem CallStepped.decisions {ws : List Write} {next : CallProc}
    (h : CallStepped model policy input db now p (.write ws next)) :
    ws.filterMap Write.decision? = [] ∨
      ∃ ctx d, ws.filterMap Write.decision? = [d] ∧
        (p = .decideLocked ctx ∨ ∃ verdict, p = .decideAdmit ctx verdict) ∧
        d.sourceSystem = ctx.ref.sourceSystem ∧
        d.paymentAttemptId = ctx.ref.paymentAttemptId ∧
        (d.decisionType = .act → (∃ verdict, p = .decideAdmit ctx verdict) ∧
          countRecentActDecisions (db 0) (ctx.tDecide - Time.seconds 60) <
            policy.globalRateLimitPerMinute) := by
  by_cases hnone : ∀ d, .appendDecision d ∉ ws
  · refine .inl (List.filterMap_eq_nil_iff.mpr fun w hw => ?_)
    cases w with
    | appendDecision d => exact absurd hw (hnone d)
    | _ => rfl
  obtain ⟨d, hd⟩ : ∃ d, .appendDecision d ∈ ws := by simpa using hnone
  generalize ho : Outcome.write ws next = o at h
  cases h with
  | @lockedAppend ctx d' hres =>
      cases ho
      rcases decideLocked_spec policy (input.reads db) ctx with
        ⟨_, hs, -⟩ | ⟨verdict, hs, hact⟩ | ⟨_, hs, -⟩
      · simp [hres] at hs
      · obtain rfl : d' = _ := by simpa [hres] using hs
        exact .inr ⟨ctx, _, rfl, .inl rfl, rfl, rfl, fun h => absurd h hact⟩
      · simp [hres] at hs
  | @admitted ctx verdict =>
      cases ho
      exact .inr ⟨ctx, _, rfl, .inr ⟨verdict, rfl⟩, rfl, rfl, fun h =>
        ⟨⟨verdict, rfl⟩, decideAdmitted_act h⟩⟩
  | @executing id t q o' hq hstep =>
      cases o' with
      | write vs next' =>
          obtain ⟨rfl, -⟩ := Outcome.write.inj ho
          exact absurd (executeStep_write hstep _ hd) (by simp [Write.ofExecution])
      | _ => cases ho
  | predictLock => cases ho
  | decideLock => cases ho
  | lockedAct => cases ho
  | attributeLock => cases ho
  | _ => cases ho; simp at hd

/-- A step inserts no observation, or the one an observing call makes. -/
theorem CallStepped.observations {ws : List Write} {next : CallProc}
    (h : CallStepped model policy input db now p (.write ws next)) :
    ws.filterMap Write.observation? = [] ∨
      ∃ id asOf o, p = .observe id asOf ∧ ws = [.insertObservation o] ∧
        observe (input.reads db) id asOf = .ok o := by
  by_cases hnone : ∀ o, .insertObservation o ∉ ws
  · refine .inl (List.filterMap_eq_nil_iff.mpr fun w hw => ?_)
    cases w with
    | insertObservation o => exact absurd hw (hnone o)
    | _ => rfl
  · obtain ⟨o, ho⟩ : ∃ o, .insertObservation o ∈ ws := by simpa using hnone
    obtain ⟨id, asOf, rfl, hobs⟩ := h.origin ho
    generalize heq : Outcome.write ws next = out at h
    cases h with
    | observed hrow => cases heq; exact .inr ⟨id, asOf, _, rfl, rfl, hrow⟩

end Origin

end RevenueRecovery
