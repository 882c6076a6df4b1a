import RevenueRecovery.Migration.Soundness

/-!
# The way back

The schemas at Revision A and Revision B, and the downgrades between them. Revision B gives
up the version constraints without a provider, but its own constraints imply them: a row's
key and provider are in the registry, which has one row for each key. So the downgrade of
Revision B restores them on whatever rows Revision B admits.

## Main definitions
* `KeptSchema` : the constraints that every revision keeps.
* `ExpandedSchema`, `ContractedSchema` : the constraints at Revision A and Revision B.
* `Contract.downgrade`, `Expand.downgrade` : the downgrades.
-/
namespace RevenueRecovery.Migration

open Relational

variable {ρ α : Type}

/-! ## Schemas -/

/-- The constraints from before Revision A that Revision B does not touch. -/
structure KeptSchema (db : LegacyTables ρ) : Prop where
  payment_events_pkey : Relational.Unique (fun e => some e.eventId) db.events
  uq_payment_event_source_identity :
    Relational.Unique (fun e => some (e.sourceSystem, e.sourceEventId)) db.events
  event_source_system : FitsVarchar 50 EventRow.sourceSystem db.events
  event_payment_id : FitsVarchar 255 EventRow.paymentId db.events
  failure_predictions_pkey : Relational.Unique (fun p => some p.predictionId) db.predictions
  prediction_key : FitsVarchar 255 PredictionRow.paymentAttemptId db.predictions
  intervention_decisions_pkey : Relational.Unique (fun d => some d.decisionId) db.decisions
  decision_key : FitsVarchar 255 DecisionRow.paymentAttemptId db.decisions
  intervention_commands_pkey : Relational.Unique (fun c => some c.commandId) db.commands
  uq_cmd_decision : Relational.Unique (fun c => some c.decisionId) db.commands
  uq_cmd_idempotency_key : Relational.Unique (fun c => some c.idempotencyKey) db.commands
  command_key : FitsVarchar 255 CommandRow.paymentAttemptId db.commands
  intervention_execution_attempts_pkey :
    Relational.Unique (fun a => some a.attemptId) db.executionAttempts
  uq_exec_attempt_number :
    Relational.Unique (fun a => some (a.commandId, a.attemptNumber)) db.executionAttempts
  payment_outcome_observations_pkey :
    Relational.Unique (fun o => some o.observationId) db.observations
  uq_outcome_observation_version :
    Relational.Unique (fun o => some (o.commandId, o.observationVersion)) db.observations
  uq_outcome_observation_temporal :
    Relational.Unique (fun o => some (o.commandId, o.asOfTimestamp)) db.observations
  observation_key : FitsVarchar 255 ObservationRow.paymentAttemptId db.observations
  counterfactual_attributions_pkey :
    Relational.Unique (fun a => some a.attributionId) db.attributions
  uq_attribution_version :
    Relational.Unique (fun a => some (a.commandId, a.attributionVersion)) db.attributions
  uq_attribution_temporal :
    Relational.Unique (fun a => some (a.commandId, a.asOfTimestamp)) db.attributions
  attribution_key : FitsVarchar 255 AttributionRow.paymentAttemptId db.attributions

/-- The constraints that Revision B replaces. -/
def replacedConstraints (db : LegacyTables ρ) : List (Check MigrationError) :=
  [constraint "fk_attribution_command" (References (fun a => some a.commandId) db.attributions
      (fun c => some c.commandId) db.commands),
    constraint "fk_attribution_decision" (References (fun a => some a.decisionId) db.attributions
      (fun d => some d.decisionId) db.decisions),
    constraint "uq_failure_prediction_version"
      (Relational.Unique (fun p => some (p.paymentAttemptId, p.predictionVersion)) db.predictions),
    constraint "uq_intervention_decision_version"
      (Relational.Unique (fun d => some (d.paymentAttemptId, d.decisionVersion)) db.decisions),
    constraint "uq_cmd_attempt_version"
      (Relational.Unique (fun c => some (c.paymentAttemptId, c.decisionVersion)) db.commands)]

theorem LegacySchema.kept {db : LegacyTables ρ} (h : LegacySchema db) : KeptSchema db where
  payment_events_pkey := h.payment_events_pkey
  uq_payment_event_source_identity := h.uq_payment_event_source_identity
  event_source_system := h.event_source_system
  event_payment_id := h.event_payment_id
  failure_predictions_pkey := h.failure_predictions_pkey
  prediction_key := h.prediction_key
  intervention_decisions_pkey := h.intervention_decisions_pkey
  decision_key := h.decision_key
  intervention_commands_pkey := h.intervention_commands_pkey
  uq_cmd_decision := h.uq_cmd_decision
  uq_cmd_idempotency_key := h.uq_cmd_idempotency_key
  command_key := h.command_key
  intervention_execution_attempts_pkey := h.intervention_execution_attempts_pkey
  uq_exec_attempt_number := h.uq_exec_attempt_number
  payment_outcome_observations_pkey := h.payment_outcome_observations_pkey
  uq_outcome_observation_version := h.uq_outcome_observation_version
  uq_outcome_observation_temporal := h.uq_outcome_observation_temporal
  observation_key := h.observation_key
  counterfactual_attributions_pkey := h.counterfactual_attributions_pkey
  uq_attribution_version := h.uq_attribution_version
  uq_attribution_temporal := h.uq_attribution_temporal
  attribution_key := h.attribution_key

/-- What Revision B keeps and what it replaces make up the schema before Revision A. -/
theorem KeptSchema.legacySchema {db : LegacyTables ρ} (h : KeptSchema db)
    (hreplaced : ∀ c ∈ replacedConstraints db, c.passes = true) : LegacySchema db := by
  simp only [replacedConstraints, List.forall_mem_cons, constraint_passes] at hreplaced
  obtain ⟨hcommand, hdecision, hprediction, hversion, hcommandVersion, -⟩ := hreplaced
  exact {
    payment_events_pkey := h.payment_events_pkey
    uq_payment_event_source_identity := h.uq_payment_event_source_identity
    event_source_system := h.event_source_system
    event_payment_id := h.event_payment_id
    failure_predictions_pkey := h.failure_predictions_pkey
    uq_failure_prediction_version := hprediction
    prediction_key := h.prediction_key
    intervention_decisions_pkey := h.intervention_decisions_pkey
    uq_intervention_decision_version := hversion
    decision_key := h.decision_key
    intervention_commands_pkey := h.intervention_commands_pkey
    uq_cmd_decision := h.uq_cmd_decision
    uq_cmd_idempotency_key := h.uq_cmd_idempotency_key
    uq_cmd_attempt_version := hcommandVersion
    command_key := h.command_key
    intervention_execution_attempts_pkey := h.intervention_execution_attempts_pkey
    uq_exec_attempt_number := h.uq_exec_attempt_number
    payment_outcome_observations_pkey := h.payment_outcome_observations_pkey
    uq_outcome_observation_version := h.uq_outcome_observation_version
    uq_outcome_observation_temporal := h.uq_outcome_observation_temporal
    observation_key := h.observation_key
    counterfactual_attributions_pkey := h.counterfactual_attributions_pkey
    fk_attribution_command := hcommand
    fk_attribution_decision := hdecision
    uq_attribution_version := h.uq_attribution_version
    uq_attribution_temporal := h.uq_attribution_temporal
    attribution_key := h.attribution_key }

/-- The registry with its constraints, and the key of the events it refers to. -/
structure RegistrySchema (db : ExpandedTables ρ) : Prop where
  uq_payment_event_provider :
    Relational.Unique (fun e => some (e.eventId, e.sourceSystem)) db.events
  registry : ∀ c ∈ registryConstraints db.events db.paymentAttempts, c.passes = true

/-- The constraints at Revision A: `source_system` is free. -/
structure ExpandedSchema (db : ExpandedTables ρ) : Prop extends RegistrySchema db where
  legacy : LegacySchema db.legacy

/-- The constraints at Revision B. -/
structure ContractedSchema (db : ExpandedTables ρ) : Prop extends RegistrySchema db where
  kept : KeptSchema db.legacy
  enforced : ∀ c ∈ newConstraints db, c.passes = true

/-! ## Downgrades -/

/-- Restore the constraints that Revision B replaced; it changes no row. -/
def Contract.downgrade (db : ExpandedTables ρ) : Except MigrationError (ExpandedTables ρ) := do
  requireAll (replacedConstraints db.legacy)
  return db

/-- Drop the column, the registry and the key. -/
def Expand.downgrade (db : ExpandedTables ρ) : LegacyTables ρ := db.legacy

/-! ## Upgrades -/

theorem backfill_events (attempts : List PaymentAttemptRow) (db : LegacyTables ρ) :
    (backfill attempts db).events = db.events := by
  unfold backfill
  rfl

theorem backfill_paymentAttempts (attempts : List PaymentAttemptRow) (db : LegacyTables ρ) :
    (backfill attempts db).paymentAttempts = attempts := by
  unfold backfill
  rfl

theorem registrySchema_backfill {db : LegacyTables ρ} (hschema : LegacySchema db)
    (hpre : Preflighted db) : RegistrySchema (backfill (registry db) db) := by
  constructor
  · rw [backfill_events]
    exact uq_payment_event_provider_holds hschema
  · rw [backfill_events, backfill_paymentAttempts]
    exact registryConstraints_pass hschema hpre

/-- Revision A leaves its schema behind. -/
theorem expandedSchema_of_upgrade {db : LegacyTables ρ} {db' : ExpandedTables ρ}
    (hschema : LegacySchema db) (h : Expand.upgrade db = .ok db') :
    ExpandedSchema db' ∧ db'.legacy = db := by
  rcases upgrade_cases hschema with ⟨hpre, hok⟩ | ⟨p, -, -, herror⟩
  · obtain rfl := Except.ok.inj (hok.symm.trans h)
    exact ⟨{ toRegistrySchema := registrySchema_backfill hschema hpre
             legacy := by rwa [backfill_legacy] }, backfill_legacy⟩
  · rw [herror] at h
    cases h

/-- Revision B enforces its schema and changes no row. -/
theorem contractedSchema_of_upgrade {db db' : ExpandedTables ρ} (hschema : ExpandedSchema db)
    (h : Contract.upgrade db = .ok db') : ContractedSchema db' ∧ db' = db := by
  simp only [Contract.upgrade, bind, Except.bind, pure, Except.pure] at h
  rcases requireAll_cases ((preflightChecks db).map Preflight.check) with
    ⟨hchecks, -⟩ | ⟨c, -, -, herror⟩
  · rw [hchecks] at h
    rcases requireAll_cases (newConstraints db) with ⟨hok, hall⟩ | ⟨c, -, -, herror⟩
    · rw [hok] at h
      obtain rfl := Except.ok.inj h
      exact ⟨{ toRegistrySchema := hschema.toRegistrySchema
               kept := hschema.legacy.kept
               enforced := hall }, rfl⟩
    · rw [herror] at h
      cases h
  · rw [herror] at h
    cases h

/-! ## The constraints of Revision B imply those it replaced -/

/-- Rows whose key and provider are registered are unique by key and version, when they are
unique by key, provider and version: the registry has one provider for each key. -/
theorem unique_of_keyed {registry : List PaymentAttemptRow} {rows : List (Sourced α)}
    {key : α → String} {version : α → ℤ} (hnull : NotNull rows)
    (hregistry : Relational.Unique (fun r => some r.paymentAttemptId) registry)
    (hreferences : References (Sourced.keyed key) rows PaymentAttemptRow.keyed registry)
    (hunique : Relational.Unique (Sourced.keyed fun r => (key r, version r)) rows) :
    Relational.Unique (fun r => some (key r, version r)) (rows.map Sourced.row) := by
  classical
  -- the provider of a key, as the registry has it
  let provider : String → String := fun k =>
    ((registry.find? fun pa => pa.paymentAttemptId == k).map
      PaymentAttemptRow.sourceSystem).getD ""
  rw [unique_map]
  refine hunique.refine (fun k => (k, provider k.1)) fun t ht k hk => ?_
  obtain rfl := Option.some.inj hk
  obtain ⟨source, hsource⟩ := Option.isSome_iff_exists.mp (hnull t ht)
  obtain ⟨pa, hpa, hkeyed⟩ := references_iff.mp hreferences t ht (key t.row, source)
    (by rw [Sourced.keyed, hsource]; rfl)
  obtain ⟨hkey, hprovider⟩ := Prod.mk.inj (Option.some.inj hkeyed)
  have hfound : (registry.find? fun pa => pa.paymentAttemptId == key t.row) = some pa := by
    cases hfind : registry.find? fun pa => pa.paymentAttemptId == key t.row with
    | none =>
        have hnot := List.find?_eq_none.mp hfind pa hpa
        simp [hkey] at hnot
    | some pa' =>
        have hkey' : pa'.paymentAttemptId = key t.row := by
          simpa using List.find?_some hfind
        rw [hregistry.eq_of_key (List.mem_of_find?_eq_some hfind) hpa (congrArg some hkey')
          (congrArg some hkey)]
  have hvalue : provider (key t.row) = source := by
    simp only [provider, hfound, Option.map_some, Option.getD_some, hprovider]
  rw [Sourced.keyed, hsource, hvalue]
  rfl

/-- A row references another when it does so together with its provider. -/
theorem references_of_keyed {β κ : Type} {column : α → κ} {column' : β → κ}
    {rows : List (Sourced α)} {parents : List (Sourced β)} (hnull : NotNull rows)
    (h : References (Sourced.keyed column) rows (Sourced.keyed column') parents) :
    References (fun r => some (column r)) (rows.map Sourced.row)
      (fun r => some (column' r)) (parents.map Sourced.row) := by
  refine references_iff.mpr fun r hr k hk => ?_
  obtain ⟨t, ht, rfl⟩ := List.mem_map.mp hr
  obtain rfl := Option.some.inj hk
  obtain ⟨source, hsource⟩ := Option.isSome_iff_exists.mp (hnull t ht)
  obtain ⟨p, hp, hkeyed⟩ := references_iff.mp h t ht (column t.row, source)
    (by rw [Sourced.keyed, hsource]; rfl)
  obtain ⟨source', -, heq⟩ := Option.map_eq_some_iff.mp hkeyed
  exact ⟨p.row, List.mem_map_of_mem hp, congrArg some (Prod.mk.inj heq).1⟩

theorem ContractedSchema.replaced {db : ExpandedTables ρ} (h : ContractedSchema db) :
    ∀ c ∈ replacedConstraints db.legacy, c.passes = true := by
  have hregistry := h.registry
  have henforced := h.enforced
  simp only [registryConstraints, List.forall_mem_cons, constraint_passes] at hregistry
  simp only [newConstraints, List.forall_mem_cons, constraint_passes] at henforced
  obtain ⟨-, -, -, -, hpkey, -⟩ := hregistry
  obtain ⟨hnullPredictions, hnullDecisions, hnullCommands, -, -, hnullAttributions,
    hpredictions, hdecisions, hcommands, -, -, -, hfkPredictions, hfkDecisions, hfkCommands,
    -, -, hfkCommand, hfkDecision, -⟩ := henforced
  simp only [replacedConstraints, List.forall_mem_cons, constraint_passes]
  exact ⟨references_of_keyed hnullAttributions hfkCommand,
    references_of_keyed hnullAttributions hfkDecision,
    unique_of_keyed hnullPredictions hpkey hfkPredictions hpredictions,
    unique_of_keyed hnullDecisions hpkey hfkDecisions hdecisions,
    unique_of_keyed hnullCommands hpkey hfkCommands hcommands,
    fun _ hmem => absurd hmem List.not_mem_nil⟩

/-- The downgrade of Revision B succeeds on whatever rows Revision B admits, and leaves the
schema of Revision A. -/
theorem contract_downgrade_eq_ok {db : ExpandedTables ρ} (h : ContractedSchema db) :
    Contract.downgrade db = .ok db ∧ ExpandedSchema db := by
  refine ⟨?_, { toRegistrySchema := h.toRegistrySchema
                legacy := h.kept.legacySchema h.replaced }⟩
  simp only [Contract.downgrade, requireAll_eq_ok.mpr h.replaced, bind, Except.bind, pure,
    Except.pure]

end RevenueRecovery.Migration
