import RevenueRecovery.Domain.Records
import RevenueRecovery.Lib.Table

/-!
# The database

The tables of Stages 1-8, the writes the repositories issue against them, and the
unique constraints. Every table except the Stage 2-4 ones and the command status
is append-only: `Extends` says that a later store keeps every earlier row.

## Main definitions
* `Database` : the tables.
* `Write`, `Database.apply` : the repositories' writes.
* `Database.violates` : a write breaks a unique constraint.
* `Write.clashes` : two uncommitted writes compete for one unique key or row.
* `Reads` : what the statements of a service call read.
-/
namespace RevenueRecovery

/-- The tables owned by Stages 2-4. -/
structure AnalyticsTables where
  snapshots : List PaymentHealthSnapshot := []
  signals : List DegradationSignal := []
  episodes : List DegradationEpisode := []
  history : List EpisodeStateHistory := []
  evaluations : List RootCauseAnalysisEvaluation := []
  candidates : List CandidateCause := []
deriving DecidableEq, Repr

/-- All tables, each the list of its rows in insertion order. -/
structure Database where
  events : List PaymentEvent := []
  analytics : AnalyticsTables := {}
  attempts : List RegisteredAttempt := []
  predictions : List FailurePrediction := []
  decisions : List InterventionDecision := []
  commands : List InterventionCommand := []
  executionAttempts : List ExecutionAttempt := []
  observations : List PaymentOutcomeObservation := []
  attributions : List CounterfactualAttribution := []
deriving DecidableEq, Repr

/-- The repositories' writes. `registerAttempt` does nothing on a known key, and
`updateCommandStatus` changes the command only in the expected status. -/
inductive Write
  | insertEvent (row : PaymentEvent)
  | setAnalytics (tables : AnalyticsTables)
  | registerAttempt (row : RegisteredAttempt)
  | appendPrediction (row : FailurePrediction)
  | appendDecision (row : InterventionDecision)
  | insertCommand (row : InterventionCommand)
  | updateCommandStatus (commandId : CommandId) (expected target : CommandStatus)
      (reason : Option String) (updatedAt : Time)
  | insertExecutionAttempt (row : ExecutionAttempt)
  | insertObservation (row : PaymentOutcomeObservation)
  | appendAttribution (row : CounterfactualAttribution)
deriving DecidableEq

/-! ## Unique constraints -/

namespace PaymentEvent

def sameIdentity (a b : PaymentEvent) : Bool :=
  a.eventId == b.eventId ||
    (a.sourceSystem == b.sourceSystem && a.sourceEventId == b.sourceEventId)

theorem sameIdentity_comm (a b : PaymentEvent) : a.sameIdentity b = b.sameIdentity a := by
  unfold sameIdentity
  grind

end PaymentEvent

/-- `uq_failure_prediction_version` and the primary key. -/
def FailurePrediction.sameVersion (a b : FailurePrediction) : Bool :=
  a.predictionId == b.predictionId || (a.paymentAttemptId == b.paymentAttemptId &&
    a.sourceSystem == b.sourceSystem && a.predictionVersion == b.predictionVersion)

/-- `uq_intervention_decision_version` and the primary key. -/
def InterventionDecision.sameVersion (a b : InterventionDecision) : Bool :=
  a.decisionId == b.decisionId || (a.paymentAttemptId == b.paymentAttemptId &&
    a.sourceSystem == b.sourceSystem && a.decisionVersion == b.decisionVersion)

/-- `uq_cmd_decision`, `uq_cmd_idempotency_key`, `uq_cmd_attempt_version` and the
primary key. -/
def InterventionCommand.sameIdentity (a b : InterventionCommand) : Bool :=
  a.commandId == b.commandId || a.decisionId == b.decisionId ||
    a.idempotencyKey == b.idempotencyKey || (a.paymentAttemptId == b.paymentAttemptId &&
    a.sourceSystem == b.sourceSystem && a.decisionVersion == b.decisionVersion)

/-- `uq_exec_attempt_number`. -/
def ExecutionAttempt.sameNumber (a b : ExecutionAttempt) : Bool :=
  a.commandId == b.commandId && a.attemptNumber == b.attemptNumber

/-- `uq_outcome_observation_version`, `uq_outcome_observation_temporal` and the
primary key. -/
def PaymentOutcomeObservation.sameVersion (a b : PaymentOutcomeObservation) : Bool :=
  a.observationId == b.observationId || (a.commandId == b.commandId &&
    (a.observationVersion == b.observationVersion || a.asOfTimestamp == b.asOfTimestamp))

/-- `uq_attribution_version`, `uq_attribution_temporal` and the primary key. -/
def CounterfactualAttribution.sameVersion (a b : CounterfactualAttribution) : Bool :=
  a.attributionId == b.attributionId || (a.commandId == b.commandId &&
    (a.attributionVersion == b.attributionVersion || a.asOfTimestamp == b.asOfTimestamp))

/-- Two sessions' uncommitted writes compete: the later one waits for the earlier. -/
def Write.clashes : Write → Write → Bool
  | .insertEvent a, .insertEvent b => a.sameIdentity b
  | .setAnalytics _, .setAnalytics _ => true
  | .registerAttempt a, .registerAttempt b => a.paymentAttemptId == b.paymentAttemptId
  | .appendPrediction a, .appendPrediction b => a.sameVersion b
  | .appendDecision a, .appendDecision b => a.sameVersion b
  | .insertCommand a, .insertCommand b => a.sameIdentity b
  | .updateCommandStatus a _ _ _ _, .updateCommandStatus b _ _ _ _ => a == b
  | .insertExecutionAttempt a, .insertExecutionAttempt b => a.sameNumber b
  | .insertObservation a, .insertObservation b => a.sameVersion b
  | .appendAttribution a, .appendAttribution b => a.sameVersion b
  | _, _ => false

theorem Write.clashes_symm (a b : Write) : a.clashes b = b.clashes a := by
  have hcomm : ∀ {α : Type} [DecidableEq α] (x y : α), (x == y) = (y == x) := by
    intro α _ x y; simp [Bool.beq_eq_decide_eq, eq_comm]
  cases a <;> cases b <;>
    simp only [clashes, PaymentEvent.sameIdentity, FailurePrediction.sameVersion,
      InterventionDecision.sameVersion, InterventionCommand.sameIdentity,
      ExecutionAttempt.sameNumber, PaymentOutcomeObservation.sameVersion,
      CounterfactualAttribution.sameVersion]
  all_goals simp only [Bool.beq_eq_decide_eq, eq_comm]

/-- The command with another lifecycle state; its identity and payload stay. -/
def InterventionCommand.setStatus (c : InterventionCommand) (target : CommandStatus)
    (reason : Option String) (updatedAt : Time) : InterventionCommand :=
  { c with commandStatus := target, statusReason := reason, updatedAt := updatedAt }

namespace Database

/-- A write breaks a unique constraint of the stored rows. -/
def violates (db : Database) : Write → Bool
  | .insertEvent a => db.events.any a.sameIdentity
  | .appendPrediction a => db.predictions.any a.sameVersion
  | .appendDecision a => db.decisions.any a.sameVersion
  | .insertCommand a => db.commands.any a.sameIdentity
  | .insertExecutionAttempt a => db.executionAttempts.any a.sameNumber
  | .insertObservation a => db.observations.any a.sameVersion
  | .appendAttribution a => db.attributions.any a.sameVersion
  | .registerAttempt _ | .setAnalytics _ | .updateCommandStatus .. => false

/-- The registry row of an attempt key. -/
def findAttempt (db : Database) (paymentAttemptId : String) : Option RegisteredAttempt :=
  db.attempts.find? fun r => r.paymentAttemptId = paymentAttemptId

/-- The command with this primary key: `get_command_by_id`. -/
def getCommandById (db : Database) (commandId : CommandId) : Option InterventionCommand :=
  db.commands.find? fun c => c.commandId = commandId

/-- The registry has a row for this key under this provider: the join of the
provider-exact queries on `payment_attempts`. -/
def registeredUnder (db : Database) (sourceSystem paymentAttemptId : String) : Bool :=
  db.attempts.any fun r =>
    r.paymentAttemptId == paymentAttemptId && r.sourceSystem == sourceSystem

/-- `require`: the attempt is registered under exactly this identity. -/
def require (db : Database) (ref : AttemptRef) : Except ServiceError RegisteredAttempt :=
  match db.findAttempt ref.paymentAttemptId with
  | none => .error .attemptNotRegistered
  | some row =>
      if row.sourceSystem ≠ ref.sourceSystem ∨ row.providerReference ≠ ref.providerReference then
        .error .attemptProviderConflict
      else .ok row

/-- `require` for the attempt a stored row names. -/
def requireKey (db : Database) (sourceSystem paymentAttemptId : String) :
    Except ServiceError RegisteredAttempt := do
  db.require (← AttemptRef.forKey sourceSystem paymentAttemptId)

/-- Carry out one write. -/
def apply (db : Database) : Write → Database
  | .insertEvent row => { db with events := db.events ++ [row] }
  | .setAnalytics tables => { db with analytics := tables }
  | .registerAttempt row =>
      if (db.findAttempt row.paymentAttemptId).isSome then db
      else { db with attempts := db.attempts ++ [row] }
  | .appendPrediction row => { db with predictions := db.predictions ++ [row] }
  | .appendDecision row => { db with decisions := db.decisions ++ [row] }
  | .insertCommand row => { db with commands := db.commands ++ [row] }
  | .updateCommandStatus commandId expected target reason updatedAt =>
      { db with commands := db.commands.map fun c =>
          if c.commandId = commandId ∧ c.commandStatus = expected then
            c.setStatus target reason updatedAt
          else c }
  | .insertExecutionAttempt row =>
      { db with executionAttempts := db.executionAttempts ++ [row] }
  | .insertObservation row => { db with observations := db.observations ++ [row] }
  | .appendAttribution row => { db with attributions := db.attributions ++ [row] }

end Database

/-! ## Reads -/

/-- What the statements of a service call read: the store each of them sees, the
physical order in which each returns the rows it does not sort, and the order of the
string forms of episode ids. -/
structure Reads where
  db : ℕ → Database
  order : ℕ → ℕ → ℕ := fun _ i => i
  episodeOrder : EpisodeId → ℕ := fun _ => 0

namespace Reads

/-- Every statement reads the same store. -/
def all (db : Database) : Reads := { db := fun _ => db }

/-- The reads of the statements from the `k`-th on. -/
def shift (r : Reads) (k : ℕ) : Reads :=
  { r with db := fun i => r.db (k + i), order := fun i => r.order (k + i) }

/-- The rows of a table statement `k` selects, in the order it returns them. -/
def rows {α : Type} (r : Reads) (k : ℕ) (table : Database → List α) (p : α → Bool) : List α :=
  Table.scan (r.order k) ((table (r.db k)).filter p)

@[simp] theorem mem_rows {α : Type} {r : Reads} {k : ℕ} {table : Database → List α}
    {p : α → Bool} {a : α} : a ∈ r.rows k table p ↔ a ∈ table (r.db k) ∧ p a = true := by
  simp [rows]

end Reads

end RevenueRecovery
