import Mathlib.Data.Prod.Lex
import RevenueRecovery.Domain.Events
import RevenueRecovery.Lib.Relational

/-!
# The schema the provider-identity migration works on

The tables before Revision A and the constraints the earlier revisions put on them,
and the tables after it. A row has the columns the two revisions read; `rest` holds
its other columns. Revision A adds the column `source_system` to six tables, `NULL`
at first, and the registry `payment_attempts`.

## Main definitions
* `LegacyTables`, `LegacySchema`, `LegacyDatabase` : before Revision A.
* `ExpandedTables` : after Revision A; `legacy` forgets what it added.
* `MigrationError`, `Preflight`, `constraint` : the checks of a revision.
* `Content`, `inTransaction` : a revision runs in one transaction.
-/
namespace RevenueRecovery.Migration

open Relational

/-! ## Values -/

abbrev Uuid := BitVec 128

/-- `uuid::text`. -/
def Uuid.text (u : Uuid) : String :=
  let hex := u.toHex.toList
  let part := fun (start len : ℕ) => String.ofList ((hex.drop start).take len)
  "-".intercalate [part 0 8, part 8 4, part 12 4, part 16 4, part 20 12]

/-- `left(s, n)`. -/
def leftChars (s : String) (n : ℕ) : String := String.ofList (s.toList.take n)

/-- `substr(s, n)`; characters are counted from `1`. -/
def substrFrom (s : String) (n : ℕ) : String := String.ofList (s.toList.drop (n - 1))

/-- `format('%L', s)`: quotes and backslashes are doubled. -/
def quoteLiteral (s : String) : String :=
  let escaped := s.toList.flatMap fun c => if c = '\'' ∨ c = '\\' then [c, c] else [c]
  let quoted := String.ofList ('\'' :: escaped ++ ['\''])
  if s.toList.contains '\\' then "E" ++ quoted else quoted

/-! ## Rows -/

variable {ρ : Type}

structure EventRow (ρ : Type) where
  eventId : Uuid
  sourceSystem : String
  sourceEventId : String
  paymentId : String
  orderId : Option String
  eventType : String
  ingestedAt : Time
  rest : ρ
deriving DecidableEq

structure PredictionRow (ρ : Type) where
  predictionId : Uuid
  paymentAttemptId : String
  predictionVersion : ℤ
  createdAt : Time
  rest : ρ
deriving DecidableEq

structure DecisionRow (ρ : Type) where
  decisionId : Uuid
  paymentAttemptId : String
  decisionVersion : ℤ
  stage5PredictionId : Option Uuid
  createdAt : Time
  rest : ρ
deriving DecidableEq

structure CommandRow (ρ : Type) where
  commandId : Uuid
  decisionId : Uuid
  paymentAttemptId : String
  decisionVersion : ℤ
  idempotencyKey : String
  createdAt : Time
  rest : ρ
deriving DecidableEq

structure ExecutionAttemptRow (ρ : Type) where
  attemptId : Uuid
  commandId : Uuid
  attemptNumber : ℤ
  rest : ρ
deriving DecidableEq

structure ObservationRow (ρ : Type) where
  observationId : Uuid
  commandId : Uuid
  paymentAttemptId : String
  observationVersion : ℤ
  asOfTimestamp : Time
  terminalEventId : Option Uuid
  createdAt : Time
  rest : ρ
deriving DecidableEq

structure AttributionRow (ρ : Type) where
  attributionId : Uuid
  commandId : Uuid
  paymentAttemptId : String
  decisionId : Uuid
  attributionVersion : ℤ
  asOfTimestamp : Time
  createdAt : Time
  rest : ρ
deriving DecidableEq

/-- A row of `payment_attempts`. `registeredAt` is `NOT NULL`. -/
structure PaymentAttemptRow where
  paymentAttemptId : String
  sourceSystem : String
  providerReference : String
  triggerEventId : Uuid
  registeredAt : Option Time
deriving DecidableEq

/-- A row with the column Revision A adds to its table. -/
structure Sourced (α : Type) where
  row : α
  sourceSystem : Option String
deriving DecidableEq

/-! ## Before Revision A -/

structure LegacyTables (ρ : Type) where
  events : List (EventRow ρ)
  predictions : List (PredictionRow ρ)
  decisions : List (DecisionRow ρ)
  commands : List (CommandRow ρ)
  executionAttempts : List (ExecutionAttemptRow ρ)
  observations : List (ObservationRow ρ)
  attributions : List (AttributionRow ρ)
deriving DecidableEq

/-- Every value of the column fits a `VARCHAR(n)`. -/
def FitsVarchar {α : Type} (n : ℕ) (column : α → String) (rows : List α) : Prop :=
  ∀ r ∈ rows, (column r).toList.length ≤ n

instance {α : Type} {n : ℕ} {column : α → String} {rows : List α} :
    Decidable (FitsVarchar n column rows) :=
  inferInstanceAs (Decidable (∀ r ∈ rows, (column r).toList.length ≤ n))

/-- The constraints of the tables before Revision A. -/
structure LegacySchema (db : LegacyTables ρ) : Prop where
  payment_events_pkey : Unique (fun e => some e.eventId) db.events
  uq_payment_event_source_identity :
    Unique (fun e => some (e.sourceSystem, e.sourceEventId)) db.events
  event_source_system : FitsVarchar 50 EventRow.sourceSystem db.events
  event_payment_id : FitsVarchar 255 EventRow.paymentId db.events
  failure_predictions_pkey : Unique (fun p => some p.predictionId) db.predictions
  uq_failure_prediction_version :
    Unique (fun p => some (p.paymentAttemptId, p.predictionVersion)) db.predictions
  prediction_key : FitsVarchar 255 PredictionRow.paymentAttemptId db.predictions
  intervention_decisions_pkey : Unique (fun d => some d.decisionId) db.decisions
  uq_intervention_decision_version :
    Unique (fun d => some (d.paymentAttemptId, d.decisionVersion)) db.decisions
  decision_key : FitsVarchar 255 DecisionRow.paymentAttemptId db.decisions
  intervention_commands_pkey : Unique (fun c => some c.commandId) db.commands
  uq_cmd_decision : Unique (fun c => some c.decisionId) db.commands
  uq_cmd_idempotency_key : Unique (fun c => some c.idempotencyKey) db.commands
  uq_cmd_attempt_version :
    Unique (fun c => some (c.paymentAttemptId, c.decisionVersion)) db.commands
  command_key : FitsVarchar 255 CommandRow.paymentAttemptId db.commands
  intervention_execution_attempts_pkey :
    Unique (fun a => some a.attemptId) db.executionAttempts
  uq_exec_attempt_number :
    Unique (fun a => some (a.commandId, a.attemptNumber)) db.executionAttempts
  payment_outcome_observations_pkey : Unique (fun o => some o.observationId) db.observations
  uq_outcome_observation_version :
    Unique (fun o => some (o.commandId, o.observationVersion)) db.observations
  uq_outcome_observation_temporal :
    Unique (fun o => some (o.commandId, o.asOfTimestamp)) db.observations
  observation_key : FitsVarchar 255 ObservationRow.paymentAttemptId db.observations
  counterfactual_attributions_pkey : Unique (fun a => some a.attributionId) db.attributions
  fk_attribution_command : References (fun a => some a.commandId) db.attributions
    (fun c => some c.commandId) db.commands
  fk_attribution_decision : References (fun a => some a.decisionId) db.attributions
    (fun d => some d.decisionId) db.decisions
  uq_attribution_version :
    Unique (fun a => some (a.commandId, a.attributionVersion)) db.attributions
  uq_attribution_temporal :
    Unique (fun a => some (a.commandId, a.asOfTimestamp)) db.attributions
  attribution_key : FitsVarchar 255 AttributionRow.paymentAttemptId db.attributions

/-- A database before Revision A. -/
structure LegacyDatabase (ρ : Type) extends LegacyTables ρ where
  schema : LegacySchema toLegacyTables

/-! ## After Revision A -/

structure ExpandedTables (ρ : Type) where
  events : List (EventRow ρ)
  paymentAttempts : List PaymentAttemptRow
  predictions : List (Sourced (PredictionRow ρ))
  decisions : List (Sourced (DecisionRow ρ))
  commands : List (Sourced (CommandRow ρ))
  executionAttempts : List (Sourced (ExecutionAttemptRow ρ))
  observations : List (Sourced (ObservationRow ρ))
  attributions : List (Sourced (AttributionRow ρ))
deriving DecidableEq

/-- The columns the tables had before. -/
def ExpandedTables.legacy (db : ExpandedTables ρ) : LegacyTables ρ where
  events := db.events
  predictions := db.predictions.map Sourced.row
  decisions := db.decisions.map Sourced.row
  commands := db.commands.map Sourced.row
  executionAttempts := db.executionAttempts.map Sourced.row
  observations := db.observations.map Sourced.row
  attributions := db.attributions.map Sourced.row

/-! ## Checks -/

/-- A preflight that found offending rows, or a statement a constraint refused. -/
inductive MigrationError
  | preflight (code description : String) (offending : ℕ) (sample : String)
  | constraint (name : String)
deriving DecidableEq, Repr

/-- A preflight: the query returns one text column that identifies the offending rows. -/
structure Preflight where
  code : String
  description : String
  query : List (Option String)

namespace Preflight

/-- What `p3_require_none` raises: how many rows offend, and the first ten of them, in the
order of code points. -/
def failure (p : Preflight) : MigrationError :=
  .preflight p.code p.description p.query.length
    (", ".intercalate (((p.query.filterMap id).insertionSort (· ≤ ·)).take 10))

def check (p : Preflight) : Check MigrationError := ⟨p.query.isEmpty, p.failure⟩

@[simp] theorem check_passes (p : Preflight) : p.check.passes = true ↔ p.query = [] :=
  List.isEmpty_iff

@[simp] theorem check_error (p : Preflight) : p.check.error = p.failure := rfl

end Preflight

/-- A constraint that a statement establishes or has to keep. -/
def constraint (name : String) (holds : Prop) [Decidable holds] : Check MigrationError :=
  ⟨holds, .constraint name⟩

@[simp] theorem constraint_passes {name : String} {holds : Prop} [Decidable holds] :
    (constraint name holds).passes = true ↔ holds := decide_eq_true_iff

/-! ## Transactions -/

/-- What the database holds. -/
inductive Content (ρ : Type)
  | legacy (db : LegacyTables ρ)
  | expanded (db : ExpandedTables ρ)

/-- An error rolls every statement of the revision back. -/
def inTransaction (upgrade : LegacyTables ρ → Except MigrationError (ExpandedTables ρ))
    (db : LegacyTables ρ) : Content ρ × Option MigrationError :=
  match upgrade db with
  | .error err => (.legacy db, some err)
  | .ok db' => (.expanded db', none)

end RevenueRecovery.Migration
