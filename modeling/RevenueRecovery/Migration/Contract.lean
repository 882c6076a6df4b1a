import RevenueRecovery.Migration.Expand

/-!
# Revision B: the composite constraints

`Contract.upgrade` checks the backfilled tables and then enforces `NOT NULL` on
`source_system`, takes it into the version constraints, and adds the composite keys
and foreign keys. It changes no row.

## Main definitions
* `preflightChecks` : PF-B01 to PF-B19.
* `newConstraints` : what Revision B enforces.
* `Contract.upgrade` : Revision B.
-/
namespace RevenueRecovery.Migration

open Relational

variable {ρ α β : Type}

/-! ## Preflights -/

/-- `a <> b` on columns that may be `NULL`. -/
def differs (a b : Option String) : Bool :=
  match a, b with
  | some a, some b => a != b
  | _, _ => false

/-- PF-B01 to PF-B06: a row has no `source_system`. -/
def pfbNotNull (code table : String) (pk : α → Uuid) (rows : List (Sourced α)) : Preflight where
  code := code
  description := "every " ++ table ++ " row must have a source_system"
  query := (rows.filter (·.sourceSystem.isNone)).map fun r => some (pk r.row).text

/-- PF-B07 to PF-B11: a row's key and provider are not in the registry. -/
def pfbRegistered (code name : String) (pk : α → Uuid) (paymentAttemptId : α → String)
    (registry : List PaymentAttemptRow) (rows : List (Sourced α)) : Preflight where
  code := code
  description := "every " ++ name ++ " (attempt_id, source_system) must exist in payment_attempts"
  query := (rows.filter fun r => !registry.any fun pa =>
    pa.paymentAttemptId == paymentAttemptId r.row && some pa.sourceSystem == r.sourceSystem).map
      fun r => some (pk r.row).text

/-- PF-B12 to PF-B16: a row and the row it belongs to have two providers. -/
def pfbProvider (code description : String) (pk : α → Uuid) (parentOf : α → Uuid)
    (parentPk : β → Uuid) (rows : List (Sourced α)) (parents : List (Sourced β)) : Preflight where
  code := code
  description := description
  query := ((join (fun r p => parentPk p.row == parentOf r.row) rows parents).filter
    fun (r, p) => differs r.sourceSystem p.sourceSystem).map fun (r, _) => some (pk r.row).text

/-- PF-B17 to PF-B19: two rows have one key, provider and version. -/
def pfbVersions (code description : String) (paymentAttemptId : α → String) (version : α → ℤ)
    (rows : List (Sourced α)) : Preflight where
  code := code
  description := description
  query := (duplicates (rows.map fun r =>
    (paymentAttemptId r.row, r.sourceSystem, version r.row))).map
      fun (paymentAttemptId, sourceSystem, version) => sourceSystem.map fun sourceSystem =>
        paymentAttemptId ++ "/" ++ sourceSystem ++ "/v" ++ toString version

def preflightChecks (db : ExpandedTables ρ) : List Preflight :=
  [pfbNotNull "PF-B01" "failure_predictions" PredictionRow.predictionId db.predictions,
    pfbNotNull "PF-B02" "intervention_decisions" DecisionRow.decisionId db.decisions,
    pfbNotNull "PF-B03" "intervention_commands" CommandRow.commandId db.commands,
    pfbNotNull "PF-B04" "intervention_execution_attempts" ExecutionAttemptRow.attemptId
      db.executionAttempts,
    pfbNotNull "PF-B05" "payment_outcome_observations" ObservationRow.observationId
      db.observations,
    pfbNotNull "PF-B06" "counterfactual_attributions" AttributionRow.attributionId
      db.attributions,
    pfbRegistered "PF-B07" "prediction" PredictionRow.predictionId
      PredictionRow.paymentAttemptId db.paymentAttempts db.predictions,
    pfbRegistered "PF-B08" "decision" DecisionRow.decisionId DecisionRow.paymentAttemptId
      db.paymentAttempts db.decisions,
    pfbRegistered "PF-B09" "command" CommandRow.commandId CommandRow.paymentAttemptId
      db.paymentAttempts db.commands,
    pfbRegistered "PF-B10" "observation" ObservationRow.observationId
      ObservationRow.paymentAttemptId db.paymentAttempts db.observations,
    pfbRegistered "PF-B11" "attribution" AttributionRow.attributionId
      AttributionRow.paymentAttemptId db.paymentAttempts db.attributions,
    pfbProvider "PF-B12" "every command must match its decision provider"
      CommandRow.commandId CommandRow.decisionId DecisionRow.decisionId db.commands db.decisions,
    pfbProvider "PF-B13" "every execution attempt must match its command provider"
      ExecutionAttemptRow.attemptId ExecutionAttemptRow.commandId CommandRow.commandId
      db.executionAttempts db.commands,
    pfbProvider "PF-B14" "every observation must match its command provider"
      ObservationRow.observationId ObservationRow.commandId CommandRow.commandId
      db.observations db.commands,
    pfbProvider "PF-B15" "every attribution must match its command provider"
      AttributionRow.attributionId AttributionRow.commandId CommandRow.commandId
      db.attributions db.commands,
    pfbProvider "PF-B16" "every attribution must match its decision provider"
      AttributionRow.attributionId AttributionRow.decisionId DecisionRow.decisionId
      db.attributions db.decisions,
    pfbVersions "PF-B17"
      "prediction versions must be unique per (payment_attempt_id, source_system, prediction_version)"
      PredictionRow.paymentAttemptId PredictionRow.predictionVersion db.predictions,
    pfbVersions "PF-B18"
      "decision versions must be unique per (payment_attempt_id, source_system, decision_version)"
      DecisionRow.paymentAttemptId DecisionRow.decisionVersion db.decisions,
    pfbVersions "PF-B19"
      "command versions must be unique per (payment_attempt_id, source_system, decision_version)"
      CommandRow.paymentAttemptId CommandRow.decisionVersion db.commands]

/-! ## Constraints -/

/-- `source_system` is `NOT NULL`. -/
def NotNull (rows : List (Sourced α)) : Prop := ∀ r ∈ rows, r.sourceSystem.isSome

instance {rows : List (Sourced α)} : Decidable (NotNull rows) :=
  inferInstanceAs (Decidable (∀ r ∈ rows, r.sourceSystem.isSome))

/-- The columns `(column, source_system)`, unless `source_system` is `NULL`. -/
def Sourced.keyed {κ : Type} (column : α → κ) (r : Sourced α) : Option (κ × String) :=
  r.sourceSystem.map fun sourceSystem => (column r.row, sourceSystem)

/-- The columns `(payment_attempt_id, source_system)` of the registry. -/
def PaymentAttemptRow.keyed (r : PaymentAttemptRow) : Option (String × String) :=
  some (r.paymentAttemptId, r.sourceSystem)

def newConstraints (db : ExpandedTables ρ) : List (Check MigrationError) :=
  [constraint "failure_predictions.source_system" (NotNull db.predictions),
    constraint "intervention_decisions.source_system" (NotNull db.decisions),
    constraint "intervention_commands.source_system" (NotNull db.commands),
    constraint "intervention_execution_attempts.source_system" (NotNull db.executionAttempts),
    constraint "payment_outcome_observations.source_system" (NotNull db.observations),
    constraint "counterfactual_attributions.source_system" (NotNull db.attributions),
    constraint "uq_failure_prediction_version" (Unique
      (Sourced.keyed fun r => (r.paymentAttemptId, r.predictionVersion)) db.predictions),
    constraint "uq_intervention_decision_version" (Unique
      (Sourced.keyed fun r => (r.paymentAttemptId, r.decisionVersion)) db.decisions),
    constraint "uq_cmd_attempt_version" (Unique
      (Sourced.keyed fun r => (r.paymentAttemptId, r.decisionVersion)) db.commands),
    constraint "uq_failure_prediction_provider"
      (Unique (Sourced.keyed PredictionRow.predictionId) db.predictions),
    constraint "uq_intervention_decision_provider"
      (Unique (Sourced.keyed DecisionRow.decisionId) db.decisions),
    constraint "uq_cmd_provider" (Unique (Sourced.keyed CommandRow.commandId) db.commands),
    constraint "fk_failure_predictions_payment_attempt"
      (References (Sourced.keyed PredictionRow.paymentAttemptId) db.predictions
        PaymentAttemptRow.keyed db.paymentAttempts),
    constraint "fk_intervention_decisions_payment_attempt"
      (References (Sourced.keyed DecisionRow.paymentAttemptId) db.decisions
        PaymentAttemptRow.keyed db.paymentAttempts),
    constraint "fk_intervention_commands_payment_attempt"
      (References (Sourced.keyed CommandRow.paymentAttemptId) db.commands
        PaymentAttemptRow.keyed db.paymentAttempts),
    constraint "fk_payment_outcome_observations_payment_attempt"
      (References (Sourced.keyed ObservationRow.paymentAttemptId) db.observations
        PaymentAttemptRow.keyed db.paymentAttempts),
    constraint "fk_counterfactual_attributions_payment_attempt"
      (References (Sourced.keyed AttributionRow.paymentAttemptId) db.attributions
        PaymentAttemptRow.keyed db.paymentAttempts),
    constraint "fk_attribution_command"
      (References (Sourced.keyed AttributionRow.commandId) db.attributions
        (Sourced.keyed CommandRow.commandId) db.commands),
    constraint "fk_attribution_decision"
      (References (Sourced.keyed AttributionRow.decisionId) db.attributions
        (Sourced.keyed DecisionRow.decisionId) db.decisions),
    constraint "fk_command_decision"
      (References (Sourced.keyed CommandRow.decisionId) db.commands
        (Sourced.keyed DecisionRow.decisionId) db.decisions),
    constraint "fk_exec_attempt_command"
      (References (Sourced.keyed ExecutionAttemptRow.commandId) db.executionAttempts
        (Sourced.keyed CommandRow.commandId) db.commands),
    constraint "fk_observation_command"
      (References (Sourced.keyed ObservationRow.commandId) db.observations
        (Sourced.keyed CommandRow.commandId) db.commands)]

/-- Validate the provider contracts, then enforce them. -/
def Contract.upgrade (db : ExpandedTables ρ) : Except MigrationError (ExpandedTables ρ) := do
  requireAll ((preflightChecks db).map Preflight.check)
  requireAll (newConstraints db)
  return db

end RevenueRecovery.Migration
