import RevenueRecovery.Services.Calls
import RevenueRecovery.Store

/-!
# Stages 5-8: concurrent service calls

Any number of service calls run against one store, each in a transaction of its own, while
events are ingested, attempts are registered and Stages 2-4 store their results.

## Main definitions
* `ServiceProc`, `serviceProgram` : the calls as a transactional program.
* `serviceRun` : its runs.
-/
namespace RevenueRecovery

open Transaction

/-- Where the transaction of a call stands. -/
inductive ServiceProc
  | running (p : CallProc)
  | committed
  | rolledBack
deriving DecidableEq

/-- What reaches the store from outside: events, registered attempts, the tables of
Stages 2-4, and calls. -/
inductive ServiceArrival
  | event (row : PaymentEvent)
  | attempt (row : RegisteredAttempt)
  | analytics (tables : AnalyticsTables)
  | predict (ref : AttemptRef) (t : Time)
  | decide (ref : AttemptRef) (tDecide : Time)
  | createCommand (decision : InterventionDecision) (expiresInSeconds : ℤ) (now : Time)
  | executeCommand (commandId : CommandId) (claimTime : Time)
  | observe (commandId : CommandId) (asOf : Time)
  | attributePayment (commandId : CommandId) (asOf : Time)
deriving DecidableEq

def ServiceArrival.effect : ServiceArrival → List Write × List ServiceProc
  | .event row => ([.insertEvent row], [])
  | .attempt row => ([.registerAttempt row], [])
  | .analytics tables => ([.setAnalytics tables], [])
  | .predict ref t => ([], [.running (.predict ref t)])
  | .decide ref t => ([], [.running (.decide ref t)])
  | .createCommand d e t => ([], [.running (.create d e t)])
  | .executeCommand id t => ([], [.running (.execute id t .start)])
  | .observe id asOf => ([], [.running (.observe id asOf)])
  | .attributePayment id asOf => ([], [.running (.attributePayment id asOf)])

/-- A failed call is rolled back; a committed one stays committed. -/
def ServiceProc.onError : ServiceProc → ServiceProc
  | .committed => .committed
  | _ => .rolledBack

abbrev ServiceSession := Session Database Write LockKey ServiceProc
abbrev ServiceWorld := World Database Write LockKey InterventionCommand ServiceProc
abbrev ServiceAction := Action CallInput ServiceArrival
abbrev ServiceStepOutcome := Outcome Write LockKey InterventionCommand ServiceProc

section Program
variable (model : FailurePredictionModel) (policy : InterventionPolicy)

/-- One step of a call's transaction, which commits when the call returns and is rolled
back when it raises. -/
def serviceStep : ServiceProc → CallInput → (ℕ → Database) → Database → Option ServiceStepOutcome
  | .running (.returned _), _, _, _ => some (.commit .committed)
  | .running p, input, reads, now =>
      match callStep model policy input reads now p with
      | .error _ => some (.rollback .rolledBack)
      | .ok o => some (o.map .running)
  | .committed, _, _, _ => none
  | .rolledBack, _, _, _ => none

def serviceProgram :
    Program Database Write LockKey InterventionCommand ServiceProc CallInput ServiceArrival where
  apply := Database.apply
  violates := Database.violates
  clashes := Write.clashes
  clashes_symm := Write.clashes_symm
  step := serviceStep model policy
  onError := ServiceProc.onError
  arrive x _ := some x.effect

/-- The runs of service calls from an empty store. -/
def serviceRun (as : List ServiceAction) : Option ServiceWorld :=
  Run.exec (serviceProgram model policy).worldStep ⟨{}, [], []⟩ as

end Program

section Steps
variable {model : FailurePredictionModel} {policy : InterventionPolicy} {db : Database}
  {s : ServiceSession} {input : CallInput} {o : ServiceStepOutcome}

theorem serviceProgram_view (db : Database) (s : ServiceSession) :
    (serviceProgram model policy).view db s = s.pending.foldl Database.apply db := rfl

/-- A step commits a call that has returned, rolls back one that raises, or is a step of
the call. -/
theorem serviceStepped (h : (serviceProgram model policy).outcome db s input = some o) :
    (∃ result, s.proc = .running (.returned result) ∧ o = .commit .committed) ∨
    o = .rollback .rolledBack ∨
    ∃ p o', s.proc = .running p ∧ o = o'.map .running ∧
      CallStepped model policy input ((serviceProgram model policy).reads db s)
        ((serviceProgram model policy).view db s) p o' := by
  have hstep : serviceStep model policy s.proc input ((serviceProgram model policy).reads db s)
    ((serviceProgram model policy).view db s) = some o := h
  cases hp : s.proc with
  | committed => simp [hp, serviceStep] at hstep
  | rolledBack => simp [hp, serviceStep] at hstep
  | running p =>
      rw [hp] at hstep
      by_cases hret : ∃ result, p = .returned result
      · obtain ⟨result, rfl⟩ := hret
        exact .inl ⟨result, rfl, by simpa [serviceStep] using hstep.symm⟩
      · have hcall : (match callStep model policy input
            ((serviceProgram model policy).reads db s)
            ((serviceProgram model policy).view db s) p with
            | .error _ => some (.rollback .rolledBack)
            | .ok o => some (o.map .running)) = some o := by
          cases p <;> first | exact hstep | exact absurd ⟨_, rfl⟩ hret
        split at hcall
        · exact .inr (.inl (by simpa using hcall.symm))
        · rename_i o' ho'
          exact .inr (.inr ⟨p, o', rfl, by simpa using hcall.symm, callStepped ho'⟩)

/-- The unique constraints hold in every store the calls commit. -/
theorem serviceRun_unique {as : List ServiceAction} {w : ServiceWorld}
    (h : serviceRun model policy as = some w) : Unique w.db :=
  (Program.Constraints.Met.exec (Database.constraints rfl rfl rfl) (.empty .empty) h).store

end Steps

end RevenueRecovery
