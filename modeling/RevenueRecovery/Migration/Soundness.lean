import RevenueRecovery.Migration.Contract
import RevenueRecovery.Migration.Resolution

/-!
# The two revisions agree

On every database of the earlier schema, Revision A either aborts in a preflight and
leaves the tables as they were, or it registers and backfills every Stage 5-8 row and
Revision B accepts the result.

## Main definitions
* `Provided` : a table whose rows have the provider their key is registered with.
* `Consistent` : a row has the provider of the row it belongs to.
* `Backfilled` : what Revision A leaves behind.
* `provider_identity_migrated` : the outcome of Revision A on every database.
-/
namespace RevenueRecovery.Migration

open Relational

variable {ρ α β : Type}

/-! ## Provided tables -/

/-- Each row has the provider its key is registered with. -/
def Provided (registry : List PaymentAttemptRow) (key : α → String) (rows : List (Sourced α)) :
    Prop :=
  ∀ t ∈ rows, ∃ pa ∈ registry, pa.paymentAttemptId = key t.row ∧
    t.sourceSystem = some pa.sourceSystem

/-- Each row has the provider of the rows it belongs to. -/
def Consistent (parentOf : α → Uuid) (parentPk : β → Uuid) (rows : List (Sourced α))
    (parents : List (Sourced β)) : Prop :=
  ∀ t ∈ rows, ∀ p ∈ parents, parentPk p.row = parentOf t.row → t.sourceSystem = p.sourceSystem

section Provided
variable {registry : List PaymentAttemptRow} {key : α → String} {rows : List (Sourced α)}
  {key' : β → String} {parents : List (Sourced β)} {parentOf : α → Uuid} {parentPk : β → Uuid}

theorem Provided.notNull (h : Provided registry key rows) : NotNull rows := by
  intro t ht
  obtain ⟨pa, -, -, hsource⟩ := h t ht
  rw [hsource]
  rfl

/-- Rows of one key have one provider. -/
theorem Provided.eq_of_key (hunique : (registry.map PaymentAttemptRow.paymentAttemptId).Nodup)
    (h : Provided registry key rows) (h' : Provided registry key' parents) {t : Sourced α}
    {p : Sourced β} (ht : t ∈ rows) (hp : p ∈ parents) (hkey : key' p.row = key t.row) :
    t.sourceSystem = p.sourceSystem := by
  obtain ⟨pa, hpa, hpakey, hsource⟩ := h t ht
  obtain ⟨pa', hpa', hpakey', hsource'⟩ := h' p hp
  have hsame : pa = pa' := List.inj_on_of_nodup_map hunique hpa hpa'
    (by rw [hpakey, hpakey', hkey])
  rw [hsource, hsource', hsame]

/-- Rows that share the key of their parents are consistent with them. -/
theorem Provided.consistent
    (hunique : (registry.map PaymentAttemptRow.paymentAttemptId).Nodup)
    (h : Provided registry key rows) (h' : Provided registry key' parents)
    (hkey : ∀ t ∈ rows.map Sourced.row, ∀ p ∈ parents.map Sourced.row,
      parentPk p = parentOf t → key' p = key t) :
    Consistent parentOf parentPk rows parents := fun t ht p hp hparent =>
  h.eq_of_key hunique h' ht hp
    (hkey t.row (List.mem_map_of_mem ht) p.row (List.mem_map_of_mem hp) hparent)

theorem pfbNotNull_passes {code table : String} {pk : α → Uuid} :
    (pfbNotNull code table pk rows).query = [] ↔ NotNull rows := by
  rw [pfbNotNull, List.map_eq_nil_iff, List.filter_eq_nil_iff]
  simp [NotNull, ← Option.isSome_iff_ne_none]

theorem pf19_passes {table : String} {pk : α → Uuid} :
    (pf19 table pk rows).query = [] ↔ NotNull rows := by
  rw [pf19, List.map_eq_nil_iff, List.filter_eq_nil_iff]
  simp [NotNull, ← Option.isSome_iff_ne_none]

theorem Provided.registered (h : Provided registry key rows) {code name : String}
    {pk : α → Uuid} : (pfbRegistered code name pk key registry rows).query = [] := by
  rw [pfbRegistered, List.map_eq_nil_iff, List.filter_eq_nil_iff]
  intro t ht
  obtain ⟨pa, hpa, hkey, hsource⟩ := h t ht
  simp only [Bool.not_eq_true', Bool.not_eq_false, List.any_eq_true]
  exact ⟨pa, hpa, by simp [hkey, hsource]⟩

theorem Provided.references (h : Provided registry key rows) :
    References (Sourced.keyed key) rows PaymentAttemptRow.keyed registry := by
  refine references_iff.mpr fun t ht k hk => ?_
  obtain ⟨pa, hpa, hkey, hsource⟩ := h t ht
  refine ⟨pa, hpa, ?_⟩
  rw [← hk, PaymentAttemptRow.keyed, Sourced.keyed, hsource, hkey]
  rfl

theorem Consistent.passes (h : Consistent parentOf parentPk rows parents)
    {code description : String} {pk : α → Uuid} :
    (pfbProvider code description pk parentOf parentPk rows parents).query = [] := by
  rw [pfbProvider, List.map_eq_nil_iff, List.filter_eq_nil_iff]
  rintro ⟨t, p⟩ hmem
  obtain ⟨ht, hp, hparent⟩ := mem_join.mp hmem
  simp only [h t ht p hp (by simpa using hparent)]
  cases p.sourceSystem <;> simp [differs]

/-- A consistent row with a parent references it. -/
theorem Consistent.references (h : Consistent parentOf parentPk rows parents)
    (hparent : ∀ t ∈ rows.map Sourced.row, ∃ p ∈ parents.map Sourced.row,
      parentPk p = parentOf t) :
    References (Sourced.keyed parentOf) rows (Sourced.keyed parentPk) parents := by
  refine references_iff.mpr fun t ht k hk => ?_
  obtain ⟨_, hrow, hpk⟩ := hparent t.row (List.mem_map_of_mem ht)
  obtain ⟨p, hp, rfl⟩ := List.mem_map.mp hrow
  refine ⟨p, hp, ?_⟩
  rw [← hk, Sourced.keyed, Sourced.keyed, h t ht p hp hpk, hpk]

/-- A unique column stays unique with `source_system` beside it. -/
theorem unique_keyed {κ : Type} {column : α → κ}
    (h : Unique (fun r => some (column r)) (rows.map Sourced.row)) :
    Unique (Sourced.keyed column) rows := by
  refine (unique_map.mp h).refine Prod.fst fun t _ k hk => ?_
  obtain ⟨s, -, rfl⟩ := Option.map_eq_some_iff.mp hk
  rfl

/-- A unique version stays unique under the provider. -/
theorem pfbVersions_passes {version : α → ℤ} {code description : String}
    (h : Unique (fun r => some (key r, version r)) (rows.map Sourced.row)) :
    (pfbVersions code description key version rows).query = [] := by
  rw [pfbVersions, List.map_eq_nil_iff, duplicates_eq_nil]
  rw [unique_some, List.map_map] at h
  exact List.Nodup.of_map (fun k : String × Option String × ℤ => (k.1, k.2.2))
    (by rwa [List.map_map])

end Provided

/-! ## The backfill -/

section Backfill
variable {attempts : List PaymentAttemptRow} {db : LegacyTables ρ}

theorem map_row_addSourceSystem (rows : List α) :
    (addSourceSystem rows).map Sourced.row = rows := by
  simp [addSourceSystem, Function.comp_def]

theorem map_row_backfillKeyedTable {key : α → String} (rows : List α) :
    (backfillKeyedTable key attempts (addSourceSystem rows)).map Sourced.row = rows :=
  (map_updateFrom Sourced.row (by intros; rfl)).trans (map_row_addSourceSystem rows)

theorem map_row_backfillExecutionAttempts {commands : List (Sourced (CommandRow ρ))}
    (rows : List (ExecutionAttemptRow ρ)) :
    (backfillExecutionAttempts commands (addSourceSystem rows)).map Sourced.row = rows :=
  (map_updateFrom Sourced.row (by intros; rfl)).trans (map_row_addSourceSystem rows)

/-- The backfill changes no column the tables had. -/
theorem backfill_legacy : (backfill attempts db).legacy = db := by
  simp only [ExpandedTables.legacy, backfill, map_row_backfillKeyedTable,
    map_row_backfillExecutionAttempts]

/-- A keyed table of which every key is registered is provided for. -/
theorem provided_backfillKeyedTable {key : α → String} {rows : List α}
    (h : ∀ r ∈ rows, ∃ pa ∈ attempts, pa.paymentAttemptId = key r) :
    Provided attempts key (backfillKeyedTable key attempts (addSourceSystem rows)) := by
  intro t ht
  rcases mem_updateFrom ht with ⟨r, -, pa, hpa, hjoins, rfl⟩ | ⟨hmem, hnone⟩
  · exact ⟨pa, hpa, by simpa using hjoins, rfl⟩
  · obtain ⟨r, hr, rfl⟩ := List.mem_map.mp hmem
    obtain ⟨pa, hpa, hkey⟩ := h r hr
    exact absurd (hnone pa hpa) (by simp [hkey])

/-- An execution attempt gets the provider of a command it belongs to. -/
theorem mem_backfillExecutionAttempts {commands : List (Sourced (CommandRow ρ))}
    {rows : List (ExecutionAttemptRow ρ)}
    (h : ∀ r ∈ rows, ∃ c ∈ commands, c.row.commandId = r.commandId)
    {t : Sourced (ExecutionAttemptRow ρ)}
    (ht : t ∈ backfillExecutionAttempts commands (addSourceSystem rows)) :
    ∃ c ∈ commands, c.row.commandId = t.row.commandId ∧ t.sourceSystem = c.sourceSystem := by
  rcases mem_updateFrom ht with ⟨r, -, c, hc, hjoins, rfl⟩ | ⟨hmem, hnone⟩
  · exact ⟨c, hc, by simpa using hjoins, rfl⟩
  · obtain ⟨r, hr, rfl⟩ := List.mem_map.mp hmem
    obtain ⟨c, hc, hid⟩ := h r hr
    exact absurd (hnone c hc) (by simp [hid])

/-- The tables after the backfill: the rows with their keys and providers, and how they hang
together. -/
structure Filled (db : LegacyTables ρ) (db' : ExpandedTables ρ) : Prop where
  legacy : db'.legacy = db
  unique : (db'.paymentAttempts.map PaymentAttemptRow.paymentAttemptId).Nodup
  predictions : Provided db'.paymentAttempts PredictionRow.paymentAttemptId db'.predictions
  decisions : Provided db'.paymentAttempts DecisionRow.paymentAttemptId db'.decisions
  commands : Provided db'.paymentAttempts CommandRow.paymentAttemptId db'.commands
  observations : Provided db'.paymentAttempts ObservationRow.paymentAttemptId db'.observations
  attributions : Provided db'.paymentAttempts AttributionRow.paymentAttemptId db'.attributions
  executionAttempts : ∀ t ∈ db'.executionAttempts, ∃ c ∈ db'.commands,
    c.row.commandId = t.row.commandId ∧ t.sourceSystem = c.sourceSystem

/-- A registry with one row for each key fills the tables. -/
theorem filled_backfill (h : Faithful db attempts)
    (hcommands : ∀ a ∈ db.executionAttempts, ∃ c ∈ db.commands, c.commandId = a.commandId) :
    Filled db (backfill attempts db) where
  legacy := backfill_legacy
  unique := h.unique
  predictions := provided_backfillKeyedTable fun r hr =>
    h.complete _ (mem_attemptKeys.mpr (.inl ⟨r, hr, rfl⟩))
  decisions := provided_backfillKeyedTable fun r hr =>
    h.complete _ (mem_attemptKeys.mpr (.inr (.inl ⟨r, hr, rfl⟩)))
  commands := provided_backfillKeyedTable fun r hr =>
    h.complete _ (mem_attemptKeys.mpr (.inr (.inr (.inl ⟨r, hr, rfl⟩))))
  observations := provided_backfillKeyedTable fun r hr =>
    h.complete _ (mem_attemptKeys.mpr (.inr (.inr (.inr (.inl ⟨r, hr, rfl⟩)))))
  attributions := provided_backfillKeyedTable fun r hr =>
    h.complete _ (mem_attemptKeys.mpr (.inr (.inr (.inr (.inr ⟨r, hr, rfl⟩)))))
  executionAttempts := fun t ht => by
    refine mem_backfillExecutionAttempts (fun r hr => ?_) ht
    obtain ⟨c, hc, hid⟩ := hcommands r hr
    have hrow : c ∈ (backfillKeyedTable CommandRow.paymentAttemptId attempts
        (addSourceSystem db.commands)).map Sourced.row := by
      rwa [map_row_backfillKeyedTable]
    obtain ⟨c', hc', rfl⟩ := List.mem_map.mp hrow
    exact ⟨c', hc', hid⟩

end Backfill

/-! ## Revision B -/

section Contract
variable {db : LegacyTables ρ} {db' : ExpandedTables ρ}

/-- Rows that share the key with their parents, by the columns they had before. -/
theorem Filled.consistent {rows : List (Sourced α)} {parents : List (Sourced β)}
    {key : α → String} {key' : β → String} {parentOf : α → Uuid} {parentPk : β → Uuid}
    (h : Filled db db') (hrows : Provided db'.paymentAttempts key rows)
    (hparents : Provided db'.paymentAttempts key' parents) {legacy : List α}
    {legacyParents : List β} (hlegacy : rows.map Sourced.row = legacy)
    (hlegacy' : parents.map Sourced.row = legacyParents)
    (hkey : ∀ t ∈ legacy, ∀ p ∈ legacyParents, parentPk p = parentOf t → key' p = key t) :
    Consistent parentOf parentPk rows parents := by
  subst hlegacy hlegacy'
  exact hrows.consistent h.unique hparents hkey

/-- How the rows of the filled tables belong to each other. -/
structure Linked (db' : ExpandedTables ρ) : Prop where
  commandDecision : Consistent CommandRow.decisionId DecisionRow.decisionId db'.commands
    db'.decisions
  attemptCommand : Consistent ExecutionAttemptRow.commandId CommandRow.commandId
    db'.executionAttempts db'.commands
  observationCommand : Consistent ObservationRow.commandId CommandRow.commandId
    db'.observations db'.commands
  attributionCommand : Consistent AttributionRow.commandId CommandRow.commandId
    db'.attributions db'.commands
  attributionDecision : Consistent AttributionRow.decisionId DecisionRow.decisionId
    db'.attributions db'.decisions

theorem Filled.linked (hschema : LegacySchema db) (hpre : Preflighted db) (h : Filled db db') :
    Linked db' := by
  have hdecisions := congrArg LegacyTables.decisions h.legacy
  have hcommands := congrArg LegacyTables.commands h.legacy
  refine ⟨?_, fun t ht c hc hid => ?_, ?_, ?_, ?_⟩
  · exact h.consistent h.commands h.decisions hcommands hdecisions hpre.commandMatches
  · obtain ⟨c', hc', hid', hsource⟩ := h.executionAttempts t ht
    have hunique : Unique (fun c : Sourced (CommandRow ρ) => some c.row.commandId)
        db'.commands := by
      have hpk := hschema.intervention_commands_pkey
      rwa [← hcommands, ExpandedTables.legacy, unique_map] at hpk
    rw [hsource, hunique.eq_of_key hc' hc (congrArg some (hid'.trans hid.symm)) rfl]
  · exact h.consistent h.observations h.commands (congrArg LegacyTables.observations h.legacy)
      hcommands hpre.observationMatches
  · exact h.consistent h.attributions h.commands (congrArg LegacyTables.attributions h.legacy)
      hcommands hpre.attributionMatches
  · exact h.consistent h.attributions h.decisions (congrArg LegacyTables.attributions h.legacy)
      hdecisions hpre.attributionDecisionMatches

theorem Filled.attempts_notNull (h : Filled db db') : NotNull db'.executionAttempts := by
  intro t ht
  obtain ⟨c, hc, -, hsource⟩ := h.executionAttempts t ht
  rw [hsource]
  exact h.commands.notNull c hc

/-- PF-19 finds nothing. -/
theorem Filled.preflightAfterBackfill_pass (h : Filled db db') :
    ∀ p ∈ preflightAfterBackfill db', p.query = [] := by
  simp only [preflightAfterBackfill, List.forall_mem_cons, pf19_passes]
  exact ⟨h.predictions.notNull, h.decisions.notNull, h.commands.notNull,
    h.observations.notNull, h.attributions.notNull, h.attempts_notNull, nofun⟩

/-- The preflights of Revision B find nothing. -/
theorem Filled.preflightChecks_pass (hschema : LegacySchema db) (hpre : Preflighted db)
    (h : Filled db db') : ∀ p ∈ preflightChecks db', p.query = [] := by
  have hlinked := h.linked hschema hpre
  have hpredictions := congrArg LegacyTables.predictions h.legacy
  have hdecisions := congrArg LegacyTables.decisions h.legacy
  have hcommands := congrArg LegacyTables.commands h.legacy
  simp only [ExpandedTables.legacy] at hpredictions hdecisions hcommands
  simp only [preflightChecks, List.forall_mem_cons, pfbNotNull_passes]
  refine ⟨h.predictions.notNull, h.decisions.notNull, h.commands.notNull, h.attempts_notNull,
    h.observations.notNull, h.attributions.notNull, h.predictions.registered,
    h.decisions.registered, h.commands.registered, h.observations.registered,
    h.attributions.registered, hlinked.commandDecision.passes, hlinked.attemptCommand.passes,
    hlinked.observationCommand.passes, hlinked.attributionCommand.passes,
    hlinked.attributionDecision.passes, ?_, ?_, ?_, nofun⟩
  · exact pfbVersions_passes (hpredictions ▸ hschema.uq_failure_prediction_version)
  · exact pfbVersions_passes (hdecisions ▸ hschema.uq_intervention_decision_version)
  · exact pfbVersions_passes (hcommands ▸ hschema.uq_cmd_attempt_version)

/-- The constraints of Revision B hold. -/
theorem Filled.newConstraints_pass (hschema : LegacySchema db) (hpre : Preflighted db)
    (h : Filled db db') : ∀ c ∈ newConstraints db', c.passes = true := by
  have hlinked := h.linked hschema hpre
  have hpredictions := congrArg LegacyTables.predictions h.legacy
  have hdecisions := congrArg LegacyTables.decisions h.legacy
  have hcommands := congrArg LegacyTables.commands h.legacy
  have hattempts := congrArg LegacyTables.executionAttempts h.legacy
  have hobservations := congrArg LegacyTables.observations h.legacy
  have hattributions := congrArg LegacyTables.attributions h.legacy
  simp only [ExpandedTables.legacy] at hpredictions hdecisions hcommands
  simp only [ExpandedTables.legacy] at hattempts hobservations hattributions
  simp only [newConstraints, List.forall_mem_cons, constraint_passes]
  refine ⟨h.predictions.notNull, h.decisions.notNull, h.commands.notNull, h.attempts_notNull,
    h.observations.notNull, h.attributions.notNull, ?_, ?_, ?_, ?_, ?_, ?_,
    h.predictions.references, h.decisions.references, h.commands.references,
    h.observations.references, h.attributions.references, ?_, ?_, ?_, ?_, ?_, nofun⟩
  · exact unique_keyed (hpredictions ▸ hschema.uq_failure_prediction_version)
  · exact unique_keyed (hdecisions ▸ hschema.uq_intervention_decision_version)
  · exact unique_keyed (hcommands ▸ hschema.uq_cmd_attempt_version)
  · exact unique_keyed (hpredictions ▸ hschema.failure_predictions_pkey)
  · exact unique_keyed (hdecisions ▸ hschema.intervention_decisions_pkey)
  · exact unique_keyed (hcommands ▸ hschema.intervention_commands_pkey)
  · exact hlinked.attributionCommand.references
      (by rw [hattributions, hcommands]; exact hpre.attributionCommand)
  · exact hlinked.attributionDecision.references
      (by rw [hattributions, hdecisions]; exact hpre.attributionDecision)
  · exact hlinked.commandDecision.references
      (by rw [hcommands, hdecisions]; exact hpre.decisionExists)
  · exact hlinked.attemptCommand.references
      (by rw [hattempts, hcommands]; exact hpre.commandExists)
  · exact hlinked.observationCommand.references
      (by rw [hobservations, hcommands]; exact hpre.observationCommand)

end Contract

/-! ## The outcome of Revision A -/

/-- The key has one row in the registry, which names the earliest trigger event of the key,
and the provider of that event is the one filled in. -/
def Identified (db : ExpandedTables ρ) (key : String) (sourceSystem : Option String) : Prop :=
  ∃ r e, (db.paymentAttempts.filter fun r => r.paymentAttemptId = key) = [r] ∧
    Resolves db.events key e ∧ r.sourceSystem = e.sourceSystem ∧
    r.providerReference = e.paymentId ∧ r.triggerEventId = e.eventId ∧
    sourceSystem = some e.sourceSystem

/-- What Revision A leaves behind. An execution attempt has the key of its command. -/
structure Backfilled (db : LegacyTables ρ) (db' : ExpandedTables ρ) : Prop where
  legacy : db'.legacy = db
  registered : ∀ r ∈ db'.paymentAttempts,
    r.sourceSystem ∈ supportedSources ∧ r.namespaceCheck = true
  predictions : ∀ t ∈ db'.predictions, Identified db' t.row.paymentAttemptId t.sourceSystem
  decisions : ∀ t ∈ db'.decisions, Identified db' t.row.paymentAttemptId t.sourceSystem
  commands : ∀ t ∈ db'.commands, Identified db' t.row.paymentAttemptId t.sourceSystem
  observations : ∀ t ∈ db'.observations, Identified db' t.row.paymentAttemptId t.sourceSystem
  attributions : ∀ t ∈ db'.attributions, Identified db' t.row.paymentAttemptId t.sourceSystem
  executionAttempts : ∀ t ∈ db'.executionAttempts, ∃ c ∈ db'.commands,
    c.row.commandId = t.row.commandId ∧ Identified db' c.row.paymentAttemptId t.sourceSystem

section Outcome
variable {db : LegacyTables ρ}

/-- A row provided for by the registry is identified. -/
theorem identified {attempts : List PaymentAttemptRow} (h : Faithful db attempts) {key : String}
    {sourceSystem : Option String}
    (hprovided : ∃ pa ∈ attempts, pa.paymentAttemptId = key ∧
      sourceSystem = some pa.sourceSystem) :
    Identified (backfill attempts db) key sourceSystem := by
  obtain ⟨pa, hpa, rfl, rfl⟩ := hprovided
  obtain ⟨e, hresolves, hsource, hreference, htrigger⟩ := h.resolves pa hpa
  exact ⟨pa, e, filter_key_eq_singleton h.unique hpa, hresolves, hsource, hreference, htrigger,
    by rw [hsource]⟩

theorem backfilled {attempts : List PaymentAttemptRow} (h : Faithful db attempts)
    (hfilled : Filled db (backfill attempts db)) : Backfilled db (backfill attempts db) := by
  refine ⟨hfilled.legacy, fun r hr => h.checked r hr, fun t ht => ?_, fun t ht => ?_,
    fun t ht => ?_, fun t ht => ?_, fun t ht => ?_, fun t ht => ?_⟩
  · exact identified h (hfilled.predictions t ht)
  · exact identified h (hfilled.decisions t ht)
  · exact identified h (hfilled.commands t ht)
  · exact identified h (hfilled.observations t ht)
  · exact identified h (hfilled.attributions t ht)
  · obtain ⟨c, hc, hid, hsource⟩ := hfilled.executionAttempts t ht
    exact ⟨c, hc, hid, hsource ▸ identified h (hfilled.commands c hc)⟩

theorem uq_payment_event_provider_holds (hschema : LegacySchema db) :
    Unique (fun e => some (e.eventId, e.sourceSystem)) db.events :=
  hschema.payment_events_pkey.refine Prod.fst fun e _ k hk => by rw [← Option.some.inj hk]

/-- Past the preflights nothing aborts. -/
theorem upgrade_eq_ok (hschema : LegacySchema db)
    (hbefore : requireAll ((preflightBeforeResolution db).map Preflight.check) = .ok ())
    (hafter : requireAll ((preflightAfterResolution db).map Preflight.check) = .ok ())
    (hpre : Preflighted db) : Expand.upgrade db = .ok (backfill (registry db) db) := by
  have hevents : requireAll [constraint "uq_payment_event_provider"
      (Unique (fun e => some (e.eventId, e.sourceSystem)) db.events)] = .ok () :=
    requireAll_eq_ok.mpr (by simpa using uq_payment_event_provider_holds hschema)
  have hregistry : requireAll (registryConstraints db.events (registry db)) = .ok () :=
    requireAll_eq_ok.mpr (registryConstraints_pass hschema hpre)
  have hkeys : requireAll [(pf18 (p3Keys db) (registry db)).check] = .ok () :=
    requireAll_eq_ok.mpr (by simpa using pf18_passes hpre)
  have hfilled := filled_backfill (faithful_registry hpre) hpre.commandExists
  have hnull : requireAll ((preflightAfterBackfill (backfill (registry db) db)).map
      Preflight.check) = .ok () :=
    requireAll_eq_ok.mpr (by simpa using hfilled.preflightAfterBackfill_pass)
  simp only [Expand.upgrade, hbefore, hafter, hevents, hregistry, hkeys, hnull, bind,
    Except.bind, pure, Except.pure]

/-- Revision A runs through, or the first preflight that finds something aborts it. -/
theorem upgrade_cases (hschema : LegacySchema db) :
    (Preflighted db ∧ Expand.upgrade db = .ok (backfill (registry db) db)) ∨
      ∃ p ∈ preflightBeforeResolution db ++ preflightAfterResolution db, p.query ≠ [] ∧
        Expand.upgrade db = .error p.failure := by
  rcases requireAll_cases ((preflightBeforeResolution db).map Preflight.check) with
    ⟨hbefore, hall⟩ | ⟨c, hc, hfail, herror⟩
  · rcases requireAll_cases ((preflightAfterResolution db).map Preflight.check) with
      ⟨hafter, hall'⟩ | ⟨c, hc, hfail, herror⟩
    · have hpre : Preflighted db := preflighted fun p hp => by
        rcases List.mem_append.mp hp with hp | hp
        · exact p.check_passes.mp (hall _ (List.mem_map_of_mem hp))
        · exact p.check_passes.mp (hall' _ (List.mem_map_of_mem hp))
      exact .inl ⟨hpre, upgrade_eq_ok hschema hbefore hafter hpre⟩
    · obtain ⟨p, hp, rfl⟩ := List.mem_map.mp hc
      refine .inr ⟨p, List.mem_append_right _ hp, fun h => ?_, ?_⟩
      · rw [p.check_passes.mpr h] at hfail
        cases hfail
      · simp only [Expand.upgrade, hbefore, herror, bind, Except.bind, Preflight.check_error]
  · obtain ⟨p, hp, rfl⟩ := List.mem_map.mp hc
    refine .inr ⟨p, List.mem_append_left _ hp, fun h => ?_, ?_⟩
    · rw [p.check_passes.mpr h] at hfail
      cases hfail
    · simp only [Expand.upgrade, herror, bind, Except.bind, Preflight.check_error]

theorem contract_upgrade_eq_ok {db' : ExpandedTables ρ}
    (hpreflights : ∀ p ∈ preflightChecks db', p.query = [])
    (hconstraints : ∀ c ∈ newConstraints db', c.passes = true) :
    Contract.upgrade db' = .ok db' := by
  have hchecks : requireAll ((preflightChecks db').map Preflight.check) = .ok () :=
    requireAll_eq_ok.mpr (by simpa using hpreflights)
  simp only [Contract.upgrade, hchecks, requireAll_eq_ok.mpr hconstraints, bind, Except.bind,
    pure, Except.pure]

end Outcome

/-- Revision A aborts in a preflight and leaves the tables as they were, or every Stage 5-8 row
is registered and backfilled, no other column changes, and Revision B accepts the result. -/
theorem provider_identity_migrated (db : LegacyDatabase ρ) :
    (∃ p ∈ preflightBeforeResolution db.toLegacyTables ++
        preflightAfterResolution db.toLegacyTables, p.query ≠ [] ∧
      inTransaction Expand.upgrade db.toLegacyTables =
        (.legacy db.toLegacyTables, some p.failure)) ∨
    ∃ db', inTransaction Expand.upgrade db.toLegacyTables = (.expanded db', none) ∧
      Backfilled db.toLegacyTables db' ∧ (∀ p ∈ preflightChecks db', p.query = []) ∧
      (∀ c ∈ newConstraints db', c.passes = true) ∧ Contract.upgrade db' = .ok db' := by
  rcases upgrade_cases db.schema with ⟨hpre, hok⟩ | ⟨p, hp, hquery, herror⟩
  · have hfaithful := faithful_registry hpre
    have hfilled := filled_backfill hfaithful hpre.commandExists
    have hpreflights := hfilled.preflightChecks_pass db.schema hpre
    have hconstraints := hfilled.newConstraints_pass db.schema hpre
    refine .inr ⟨_, ?_, backfilled hfaithful hfilled, hpreflights, hconstraints,
      contract_upgrade_eq_ok hpreflights hconstraints⟩
    rw [inTransaction, hok]
  · refine .inl ⟨p, hp, hquery, ?_⟩
    rw [inTransaction, herror]

namespace MigrationExample

/-- A PayPal attempt through all stages, and a Razorpay attempt that was predicted. -/
def tables : LegacyTables Unit where
  events :=
    [⟨1, "paypal", "WH-1", "O1", some "O1", "order.approved", 10, ()⟩,
      ⟨2, "razorpay", "evt_1", "pay_1", none, "payment.authorized", 20, ()⟩,
      ⟨3, "paypal", "WH-2", "CAP1", some "O1", "payment.captured", 90, ()⟩]
  predictions := [⟨11, "paypal-order:O1", 1, 30, ()⟩, ⟨12, "pay_1", 1, 31, ()⟩]
  decisions := [⟨21, "paypal-order:O1", 1, some 11, 40, ()⟩]
  commands := [⟨31, 21, "paypal-order:O1", 1, "key", 50, ()⟩]
  executionAttempts := [⟨41, 31, 1, ()⟩]
  observations := [⟨51, 31, "paypal-order:O1", 1, 95, some 3, 96, ()⟩]
  attributions := [⟨61, 31, "paypal-order:O1", 21, 1, 95, 97, ()⟩]

example : LegacyDatabase Unit := ⟨tables, by constructor <;> decide +kernel⟩

/-- Its keys are registered with their providers. -/
example : (match Expand.upgrade tables with
    | .error _ => []
    | .ok db => db.paymentAttempts.map fun r => (r.paymentAttemptId, r.sourceSystem)) =
    [("pay_1", "razorpay"), ("paypal-order:O1", "paypal")] := by decide +kernel

/-- An attempt without a trigger aborts. -/
example : (match Expand.upgrade { tables with events := tables.events.take 1 } with
    | .error (.preflight code _ _ sample) => (code, sample)
    | _ => ("", "")) = ("PF-04", "pay_1") := by decide +kernel

end MigrationExample

end RevenueRecovery.Migration
