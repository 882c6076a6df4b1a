import RevenueRecovery.Views.Timeline

/-!
# The recovery summary

The recovery workspace shows a summary over its ledger. The summary does not read the ledger:
it counts and adds up the tables one by one, each restricted to its latest versions. In the
stores of the live pipeline every number of the summary is that of the ledger rows.

## Main definitions
* `RecoverySummary`, `recoverySummary` : the summary of the recovery endpoint.
* `LedgerRow.shownIn` : the ledger shows the row's attribution in a currency.
* `CountsLedger`, `SumsLedger` : the numbers of the summary, as numbers of ledger rows.
-/
namespace RevenueRecovery

open Relational

/-! ## Summary -/

/-- `avg`, which is `NULL` for no rows. -/
def average (values : List ℚ) : Option ℚ :=
  if values = [] then none else some (values.sum / values.length)

/-- `_single_currency_amount`: the amounts of several currencies do not add up. -/
def singleCurrencyAmount : List CurrencyGroup → Option ℤ
  | [] => some 0
  | [g] => some g.amountMinorUnits
  | _ :: _ :: _ => none

structure RecoverySummary where
  interventionsDispatched : ℕ
  simulatedExecutionCount : ℕ
  actCount : ℕ
  monitorCount : ℕ
  successfulCaptures : ℕ
  failedOutcomes : ℕ
  totalProtectedGmvMinorUnits : Option ℤ
  totalProtectedGmvByCurrency : List CurrencyGroup
  attributionCount : ℕ
  avgAttributionConfidence : ℚ
  rescuedCount : ℕ
  rescuedAvgConfidence : ℚ
deriving DecidableEq, Repr

/-- The ids of attempts are compared by their parts. -/
instance : LawfulBEq (CommandId × ℕ) := inferInstance

def recoverySummary (db : Database) : RecoverySummary :=
  let observations := db.observations.filter fun o => o.observationId ∈ latestObservationIds db
  let attributions := db.attributions.filter fun a => a.attributionId ∈ latestAttributionIds db
  let attempts := db.executionAttempts.filter fun x => x.attemptId ∈ latestAttemptIds db
  let rescued := attributions.filter fun a => 0 < a.attributedProtectedGmvMinorUnits
  { interventionsDispatched := db.commands.length
    simulatedExecutionCount := attempts.countP (·.isSimulation)
    actCount := db.decisions.countP fun d => d.decisionType = .act
    monitorCount := db.decisions.countP fun d => d.decisionType = .monitor
    successfulCaptures := observations.countP fun o => o.paymentOutcome = .captured
    failedOutcomes := observations.countP fun o => o.paymentOutcome = .failed
    totalProtectedGmvMinorUnits := singleCurrencyAmount (protectedGmvByCurrency db)
    totalProtectedGmvByCurrency := protectedGmvByCurrency db
    attributionCount := attributions.length
    avgAttributionConfidence := (average (attributions.map (·.attributionConfidence))).getD 0
    rescuedCount := rescued.length
    rescuedAvgConfidence := (average (rescued.map (·.attributionConfidence))).getD 0 }

theorem singleCurrencyAmount_eq_sum {groups : List CurrencyGroup} {n : ℤ}
    (h : singleCurrencyAmount groups = some n) : n = (groups.map (·.amountMinorUnits)).sum := by
  cases groups with
  | nil => exact (Option.some.inj h).symm
  | cons g rest =>
      cases rest with
      | nil => exact (Option.some.inj h).symm.trans (by simp)
      | cons g' rest => cases h

/-! ## Columns of the ledger -/

section Columns
variable {db : Database}

/-- The joins of the ledger, one after the other. -/
def ledgerCommands (db : Database) : List (InterventionDecision × Option InterventionCommand) :=
  leftJoin (fun d c => c.decisionId = d.decisionId) db.decisions db.commands

def ledgerObservations (db : Database) : List
    ((InterventionDecision × Option InterventionCommand) × Option PaymentOutcomeObservation) :=
  leftJoin (fun r o => hasCommandId r.2 o.commandId ∧ o.observationId ∈ latestObservationIds db)
    (ledgerCommands db) db.observations

def ledgerAttributions (db : Database) : List
    (((InterventionDecision × Option InterventionCommand) × Option PaymentOutcomeObservation) ×
      Option CounterfactualAttribution) :=
  leftJoin (fun r a => a.decisionId = r.1.1.decisionId ∧ a.attributionId ∈ latestAttributionIds db)
    (ledgerObservations db) db.attributions

def ledgerAttempts (db : Database) : List
    ((((InterventionDecision × Option InterventionCommand) × Option PaymentOutcomeObservation) ×
      Option CounterfactualAttribution) × Option ExecutionAttempt) :=
  leftJoin (fun r x => hasCommandId r.1.1.2 x.commandId ∧ x.attemptId ∈ latestAttemptIds db)
    (ledgerAttributions db) db.executionAttempts

theorem ledgerJoins_eq (db : Database) : ledgerJoins db =
    (leftJoin (fun r (c : String × Option String) => c.1 = r.1.1.1.1.paymentAttemptId)
      (ledgerAttempts db) (paymentCurrency db)).map fun r =>
        ⟨r.1.1.1.1.1, r.1.1.1.1.2, r.1.1.1.2, r.1.1.2, r.1.2, r.2.bind Prod.snd⟩ := rfl

theorem Reportable.ledgerCommands_fst (h : Reportable db) :
    (ledgerCommands db).map Prod.fst = db.decisions :=
  map_fst_leftJoin fun _ _ => length_filter_le_one h.nodup_commands fun _ ha _ hb hid hid' =>
    h.unique.command_eq ha hb (.inr ((of_decide_eq_true hid).trans (of_decide_eq_true hid').symm))

theorem Reportable.ledgerObservations_fst (h : Reportable db) :
    (ledgerObservations db).map Prod.fst = ledgerCommands db := by
  refine map_fst_leftJoin fun r _ => length_filter_le_one h.nodup_observations ?_
  intro a ha b hb hmatch hmatch'
  obtain ⟨hid, hlatest⟩ := of_decide_eq_true hmatch
  obtain ⟨hid', hlatest'⟩ := of_decide_eq_true hmatch'
  exact h.latest_observation_eq ha hb hlatest hlatest' (hasCommandId_eq hid hid')

theorem Reportable.ledgerAttributions_fst (h : Reportable db) :
    (ledgerAttributions db).map Prod.fst = ledgerObservations db :=
  map_fst_leftJoin fun r _ => h.latest_attributions_of_decision r.1.1.decisionId

theorem Reportable.ledgerAttempts_fst (h : Reportable db) :
    (ledgerAttempts db).map Prod.fst = ledgerAttributions db := by
  refine map_fst_leftJoin fun r _ => length_filter_le_one h.nodup_executionAttempts ?_
  intro a ha b hb hmatch hmatch'
  obtain ⟨hid, hlatest⟩ := of_decide_eq_true hmatch
  obtain ⟨hid', hlatest'⟩ := of_decide_eq_true hmatch'
  exact h.latest_attempt_eq ha hb hlatest hlatest' (hasCommandId_eq hid hid')

/-- The rows before the currency is joined, as the ledger shows them. -/
theorem ledgerAttempts_eq (db : Database) : (ledgerJoins db).map (fun r =>
    ((((r.decision, r.command), r.observation), r.attribution), r.attempt)) =
      ledgerAttempts db := by
  rw [ledgerJoins_eq, List.map_map]
  exact map_fst_leftJoin fun r _ =>
    length_filter_key_le_one (nodup_paymentCurrency db) r.1.1.1.1.paymentAttemptId

theorem ledger_attempts (db : Database) :
    (ledgerJoins db).filterMap (·.attempt) = (ledgerAttempts db).filterMap Prod.snd := by
  rw [← ledgerAttempts_eq, List.filterMap_map]
  rfl

theorem Reportable.ledger_attributions (h : Reportable db) :
    (ledgerJoins db).filterMap (·.attribution) =
      (ledgerAttributions db).filterMap Prod.snd := by
  rw [← h.ledgerAttempts_fst, ← ledgerAttempts_eq, List.map_map, List.filterMap_map]
  rfl

theorem Reportable.ledger_observations (h : Reportable db) :
    (ledgerJoins db).filterMap (·.observation) =
      (ledgerObservations db).filterMap Prod.snd := by
  rw [← h.ledgerAttributions_fst, ← h.ledgerAttempts_fst, ← ledgerAttempts_eq, List.map_map,
    List.map_map, List.filterMap_map]
  rfl

theorem Reportable.ledger_commands (h : Reportable db) :
    (ledgerJoins db).filterMap (·.command) = (ledgerCommands db).filterMap Prod.snd := by
  rw [← h.ledgerObservations_fst, ← h.ledgerAttributions_fst, ← h.ledgerAttempts_fst,
    ← ledgerAttempts_eq, List.map_map, List.map_map, List.map_map, List.filterMap_map]
  rfl

/-! ## Rows that the ledger shows -/

theorem Inspectable.nodup_decisionIds (h : Inspectable db) :
    (db.decisions.map (·.decisionId)).Nodup :=
  h.nodup_decisions.map_on fun _ ha _ hb hid => h.unique.decision_eq ha hb hid

/-- The decision of a command that a row refers to. -/
theorem Inspectable.decision_of_command (h : Inspectable db) {id : CommandId}
    (hc : ∃ c ∈ db.commands, c.commandId = id) :
    id.decisionId ∈ db.decisions.map (·.decisionId) := by
  obtain ⟨c, hc, rfl⟩ := hc
  obtain ⟨d, hd, hid⟩ := h.commandDecision c hc
  rw [(h.identities.commands c hc).1]
  exact List.mem_map.mpr ⟨d, hd, hid⟩

/-- The joined command has the id if and only if the decision is that of the id. -/
theorem Inspectable.hasCommandId_iff (h : Inspectable db) {d : InterventionDecision}
    {command : Option InterventionCommand} (hr : (d, command) ∈ ledgerCommands db)
    {id : CommandId} (hc : ∃ c ∈ db.commands, c.commandId = id) :
    hasCommandId command id = true ↔ d.decisionId = id.decisionId := by
  obtain ⟨c, hc, rfl⟩ := hc
  have hid : c.commandId.decisionId = c.decisionId := by rw [(h.identities.commands c hc).1]
  rw [hid]
  cases command with
  | none =>
      obtain ⟨-, hnone⟩ := mem_leftJoin_none.mp hr
      constructor
      · exact fun hfalse => absurd hfalse Bool.false_ne_true
      · exact fun heq => absurd heq.symm (of_decide_eq_false (hnone c hc))
  | some c' =>
      obtain ⟨-, hc', hon⟩ := mem_leftJoin_some.mp hr
      have hdecision := of_decide_eq_true hon
      rw [hasCommandId_some, decide_eq_true_iff, ← hdecision]
      constructor
      · exact fun heq => by rw [h.unique.command_eq hc' hc (.inl heq)]
      · exact fun heq => by rw [h.unique.command_eq hc' hc (.inr heq)]

theorem Inspectable.commands_shown (h : Inspectable db) :
    ((ledgerJoins db).filterMap (·.command)).Perm db.commands := by
  rw [h.ledger_commands]
  refine (filterMap_snd_leftJoin_key (·.decisionId) (·.decisionId) (p := fun _ => true)
    h.nodup_decisionIds (fun d _ c _ => ?_) fun c hc _ => ?_).trans (.of_eq (List.filter_true _))
  · rw [decide_eq_true_iff, and_iff_left rfl, eq_comm]
  · obtain ⟨d, hd, hid⟩ := h.commandDecision c hc
    exact List.mem_map.mpr ⟨d, hd, hid⟩

theorem Inspectable.observations_shown (h : Inspectable db) :
    ((ledgerJoins db).filterMap (·.observation)).Perm
      (db.observations.filter fun o => o.observationId ∈ latestObservationIds db) := by
  rw [h.ledger_observations]
  have hkeys : (ledgerCommands db).map (fun r => r.1.decisionId) =
      db.decisions.map (·.decisionId) := by
    rw [← h.ledgerCommands_fst, List.map_map]
    rfl
  have hcommand : ∀ o ∈ db.observations, ∃ c ∈ db.commands, c.commandId = o.commandId := by
    intro o ho
    obtain ⟨c, hc, hid, -⟩ := h.identities.observations o ho
    exact ⟨c, hc, hid⟩
  refine filterMap_snd_leftJoin_key (fun r => r.1.decisionId)
    (fun o => o.commandId.decisionId) (hkeys ▸ h.nodup_decisionIds)
    (fun r hr o ho => ?_) fun o ho _ => hkeys ▸ h.decision_of_command (hcommand o ho)
  rw [decide_eq_true_iff, decide_eq_true_iff, h.hasCommandId_iff hr (hcommand o ho)]

theorem Inspectable.attributions_shown (h : Inspectable db) :
    ((ledgerJoins db).filterMap (·.attribution)).Perm
      (db.attributions.filter fun a => a.attributionId ∈ latestAttributionIds db) := by
  rw [h.ledger_attributions]
  have hkeys : (ledgerObservations db).map (fun r => r.1.1.decisionId) =
      db.decisions.map (·.decisionId) := by
    rw [← h.ledgerCommands_fst, ← h.ledgerObservations_fst, List.map_map, List.map_map]
    rfl
  refine filterMap_snd_leftJoin_key (fun r => r.1.1.decisionId) (fun a => a.decisionId)
    (hkeys ▸ h.nodup_decisionIds)
    (fun r _ a _ => ?_) fun a ha _ => ?_
  · rw [decide_eq_true_iff, decide_eq_true_iff, eq_comm]
  · obtain ⟨c, hc, -, -, -, hdecision⟩ := h.identities.attributions a ha
    obtain ⟨d, hd, hid⟩ := h.commandDecision c hc
    exact hkeys ▸ List.mem_map.mpr ⟨d, hd, hid.trans hdecision⟩

theorem Inspectable.attempts_shown (h : Inspectable db) :
    ((ledgerJoins db).filterMap (·.attempt)).Perm
      (db.executionAttempts.filter fun x => x.attemptId ∈ latestAttemptIds db) := by
  rw [ledger_attempts]
  have hfst : (ledgerAttributions db).map (fun r => r.1.1) = ledgerCommands db := by
    rw [← h.ledgerObservations_fst, ← h.ledgerAttributions_fst, List.map_map]
    rfl
  have hkeys : (ledgerAttributions db).map (fun r => r.1.1.1.decisionId) =
      db.decisions.map (·.decisionId) := by
    rw [← h.ledgerCommands_fst, ← hfst, List.map_map, List.map_map]
    rfl
  have hcommand : ∀ x ∈ db.executionAttempts, ∃ c ∈ db.commands, c.commandId = x.commandId := by
    intro x hx
    obtain ⟨c, hc, hid, -⟩ := h.identities.executionAttempts x hx
    exact ⟨c, hc, hid⟩
  refine filterMap_snd_leftJoin_key (fun r => r.1.1.1.decisionId)
    (fun x => x.commandId.decisionId) (hkeys ▸ h.nodup_decisionIds)
    (fun r hr x hx => ?_) fun x hx _ => hkeys ▸ h.decision_of_command (hcommand x hx)
  have hr' : (r.1.1.1, r.1.1.2) ∈ ledgerCommands db := hfst ▸ List.mem_map_of_mem hr
  rw [decide_eq_true_iff, decide_eq_true_iff, h.hasCommandId_iff hr' (hcommand x hx)]

end Columns

/-! ## Numbers of the ledger -/

section Numbers
variable {db : Database}

/-- The ledger shows the row's attribution in this currency. -/
def LedgerRow.shownIn (currency : Option String) (r : LedgerRow) : Bool :=
  r.attribution.isSome && r.currency = currency

/-- The counters of the summary are counts of the ledger's rows. -/
structure CountsLedger (s : RecoverySummary) (rows : List LedgerRow) : Prop where
  interventionsDispatched : s.interventionsDispatched = rows.countP (·.command.isSome)
  simulatedExecutionCount :
    s.simulatedExecutionCount = rows.countP fun r => r.attempt.any (·.isSimulation)
  actCount : s.actCount = rows.countP fun r => r.decision.decisionType = .act
  monitorCount : s.monitorCount = rows.countP fun r => r.decision.decisionType = .monitor
  successfulCaptures : s.successfulCaptures =
    rows.countP fun r => r.observation.any (·.paymentOutcome = .captured)
  failedOutcomes : s.failedOutcomes =
    rows.countP fun r => r.observation.any (·.paymentOutcome = .failed)
  attributionCount : s.attributionCount = rows.countP (·.attribution.isSome)
  rescuedCount : s.rescuedCount = rows.countP fun r => 0 < r.amount

/-- The confidences and amounts of the summary are averages and sums over the ledger's rows. -/
structure SumsLedger (s : RecoverySummary) (rows : List LedgerRow) : Prop where
  avgAttributionConfidence : s.avgAttributionConfidence =
    (average ((rows.filterMap (·.attribution)).map (·.attributionConfidence))).getD 0
  rescuedAvgConfidence : s.rescuedAvgConfidence = (average (((rows.filter fun r =>
    0 < r.amount).filterMap (·.attribution)).map (·.attributionConfidence))).getD 0
  grouped : (s.totalProtectedGmvByCurrency.map (·.currency)).Nodup
  complete : ∀ r ∈ rows, r.attribution.isSome = true →
    r.currency ∈ s.totalProtectedGmvByCurrency.map (·.currency)
  amount : ∀ g ∈ s.totalProtectedGmvByCurrency, g.amountMinorUnits =
    ((rows.filter (·.shownIn g.currency)).map (·.amount)).sum
  positive : ∀ g ∈ s.totalProtectedGmvByCurrency, g.positiveAttributionCount =
    rows.countP fun r => r.shownIn g.currency && 0 < r.amount
  simulated : ∀ g ∈ s.totalProtectedGmvByCurrency, g.simulatedExecutionCount =
    rows.countP fun r => r.shownIn g.currency && 0 < r.amount &&
      r.attribution.any (·.isSimulatedExecution)
  synthetic : ∀ g ∈ s.totalProtectedGmvByCurrency, g.syntheticBaselineCount =
    rows.countP fun r => r.shownIn g.currency && 0 < r.amount &&
      r.attribution.any (·.isSyntheticBaseline)
  total : ∀ n, s.totalProtectedGmvMinorUnits = some n → n = (rows.map (·.amount)).sum

theorem average_perm {values values' : List ℚ} (h : values.Perm values') :
    average values = average values' := by
  unfold average
  rw [h.sum_eq, h.length_eq]
  by_cases hnil : values = []
  · subst hnil
    rw [if_pos rfl, if_pos h.nil_eq.symm]
  · rw [if_neg hnil, if_neg fun hnil' => hnil (h.trans (.of_eq hnil')).eq_nil]

/-- Rows that a condition on a joined row selects. -/
theorem countP_any {α β : Type} (f : α → Option β) (p : β → Bool) (rows : List α) :
    rows.countP (fun r => (f r).any p) = (rows.filterMap f).countP p := by
  induction rows with
  | nil => rfl
  | cons r rows ih =>
      rw [List.countP_cons, ih, List.filterMap_cons]
      cases f r with
      | none => simp
      | some b => simp [List.countP_cons]

theorem filterMap_filter_any {α β : Type} (f : α → Option β) (p : β → Bool) (rows : List α) :
    (rows.filter fun r => (f r).any p).filterMap f = (rows.filterMap f).filter p := by
  induction rows with
  | nil => rfl
  | cons r rows ih =>
      rw [List.filter_cons, List.filterMap_cons]
      cases hr : f r with
      | none => simpa using ih
      | some b =>
          by_cases hb : p b = true
          · simp [hb, hr, ih]
          · simpa [hb] using ih

theorem LedgerRow.amount_pos (r : LedgerRow) : decide (0 < r.amount) =
    r.attribution.any fun a => 0 < a.attributedProtectedGmvMinorUnits := by
  unfold amount
  cases r.attribution with
  | none => rfl
  | some a => rfl

theorem ledgerRows_all (db : Database) : ledgerRows db = ledgerJoins db :=
  List.filter_eq_self.mpr fun _ _ => rfl

theorem Inspectable.countsLedger (h : Inspectable db) :
    CountsLedger (recoverySummary db) (ledgerRows db) := by
  rw [ledgerRows_all]
  have hdecisions := h.ledgerJoins_decision
  exact {
    interventionsDispatched := by
      simp only [recoverySummary]
      rw [← h.commands_shown.length_eq, ← List.countP_true, ← countP_any]
      exact List.countP_congr fun r _ => by cases r.command <;> simp
    simulatedExecutionCount := by
      rw [countP_any, h.attempts_shown.countP_eq]
      rfl
    actCount := by
      simp only [recoverySummary]
      rw [← hdecisions, List.countP_map]
      rfl
    monitorCount := by
      simp only [recoverySummary]
      rw [← hdecisions, List.countP_map]
      rfl
    successfulCaptures := by
      rw [countP_any, h.observations_shown.countP_eq]
      rfl
    failedOutcomes := by
      rw [countP_any, h.observations_shown.countP_eq]
      rfl
    attributionCount := by
      simp only [recoverySummary]
      rw [← h.attributions_shown.length_eq, ← List.countP_true, ← countP_any]
      exact List.countP_congr fun r _ => by cases r.attribution <;> simp
    rescuedCount := by
      simp only [LedgerRow.amount_pos]
      rw [countP_any, h.attributions_shown.countP_eq]
      simp only [recoverySummary, List.countP_eq_length_filter] }

/-! ## Currencies of the ledger -/

/-- The currency of a payment attempt, which is `NULL` without one. -/
def currencyOf (db : Database) (paymentAttemptId : String) : Option String :=
  ((paymentCurrency db).find? fun c => c.1 = paymentAttemptId).bind Prod.snd

theorem attributedRows_eq (db : Database) : attributedRows db false =
    db.attributions.map fun a => ⟨a, currencyOf db a.paymentAttemptId, none⟩ := by
  unfold attributedRows
  simp only [Bool.false_eq_true, if_false]
  rw [leftJoin_eq_map fun a _ =>
    length_filter_key_le_one (nodup_paymentCurrency db) a.paymentAttemptId, List.map_map]
  rfl

/-- A row of the ledger shows its attribution in the currency of its attempt. -/
theorem Inspectable.ledger_currency (h : Inspectable db) {r : LedgerRow}
    (hr : r ∈ ledgerJoins db) {a : CounterfactualAttribution} (ha : r.attribution = some a) :
    r.currency = currencyOf db a.paymentAttemptId := by
  obtain ⟨hd, -, -, hattribution, -, c, hc, hcurrency⟩ := Inspectable.ledgerJoins_selects hr
  rw [ha] at hattribution
  have hkey := (h.identities.chain.attributionDecision a hattribution.1 r.decision hd
    hattribution.2.1).1
  have hfind : Selects (fun p : String × Option String => p.1 = r.decision.paymentAttemptId)
      (paymentCurrency db)
      ((paymentCurrency db).find? fun p => p.1 = r.decision.paymentAttemptId) := by
    cases hfound : (paymentCurrency db).find? fun p => p.1 = r.decision.paymentAttemptId with
    | none => exact fun p hp hp' => List.find?_eq_none.mp hfound p hp (decide_eq_true hp')
    | some p => exact ⟨List.mem_of_find?_eq_some hfound, by simpa using List.find?_some hfound⟩
  rw [hcurrency, hkey, currencyOf, hc.unique hfind fun p hp p' hp' heq heq' =>
    List.inj_on_of_nodup_map (nodup_paymentCurrency db) hp hp' (heq.trans heq'.symm)]

/-- The groups are those of the currencies of the latest attributions. -/
theorem protectedGmvByCurrency_currency (db : Database) :
    (protectedGmvByCurrency db).map (·.currency) =
      currencyOrder ((db.attributions.filter fun a =>
        a.attributionId ∈ latestAttributionIds db).map
          fun a => currencyOf db a.paymentAttemptId) := by
  unfold protectedGmvByCurrency
  dsimp only
  rw [attributedRows_eq, List.filter_map, List.map_map, List.map_map]
  simp [Function.comp_def, currencyGroup]

/-- The latest attributions in a currency. -/
def attributionsIn (db : Database) (currency : Option String) : List CounterfactualAttribution :=
  (db.attributions.filter fun a => a.attributionId ∈ latestAttributionIds db).filter fun a =>
    currencyOf db a.paymentAttemptId = currency

/-- A group is made of the latest attributions in its currency. -/
theorem mem_protectedGmvByCurrency {g : CurrencyGroup} (hg : g ∈ protectedGmvByCurrency db) :
    g.amountMinorUnits =
        ((attributionsIn db g.currency).map (·.attributedProtectedGmvMinorUnits)).sum ∧
      g.positiveAttributionCount = (attributionsIn db g.currency).countP
        (fun a => 0 < a.attributedProtectedGmvMinorUnits) ∧
      g.simulatedExecutionCount = (attributionsIn db g.currency).countP
        (fun a => 0 < a.attributedProtectedGmvMinorUnits && a.isSimulatedExecution) ∧
      g.syntheticBaselineCount = (attributionsIn db g.currency).countP
        (fun a => 0 < a.attributedProtectedGmvMinorUnits && a.isSyntheticBaseline) := by
  obtain ⟨currency, -, rfl⟩ := List.mem_map.mp hg
  have hrows : ((((attributedRows db false).filter fun r =>
      r.attribution.attributionId ∈ latestAttributionIds db ∧ true).filter fun r =>
        r.currency = currency).map (·.attribution)) = attributionsIn db currency := by
    rw [attributedRows_eq, List.filter_map, List.filter_map, List.map_map, attributionsIn]
    simp [Function.comp_def]
  unfold currencyGroup
  dsimp only
  rw [hrows]
  refine ⟨rfl, ?_, ?_, ?_⟩
  · rw [List.countP_eq_length_filter]
  · rw [List.countP_eq_length_filter, List.filter_filter]
    simp only [Bool.and_comm, gt_iff_lt]
  · rw [List.countP_eq_length_filter, List.filter_filter]
    simp only [Bool.and_comm, gt_iff_lt]

theorem sum_amount (rows : List LedgerRow) : (rows.map (·.amount)).sum =
    ((rows.filterMap (·.attribution)).map (·.attributedProtectedGmvMinorUnits)).sum := by
  induction rows with
  | nil => rfl
  | cons r rows ih =>
      rw [List.map_cons, List.sum_cons, ih, List.filterMap_cons]
      unfold LedgerRow.amount
      cases r.attribution with
      | none => exact zero_add _
      | some a => rfl

theorem Inspectable.shownIn_eq (h : Inspectable db) {r : LedgerRow} (hr : r ∈ ledgerJoins db)
    (currency : Option String) : r.shownIn currency =
      r.attribution.any fun a => currencyOf db a.paymentAttemptId = currency := by
  unfold LedgerRow.shownIn
  cases ha : r.attribution with
  | none => rfl
  | some a =>
      rw [h.ledger_currency hr ha]
      rfl

/-- The attributions that the ledger shows in a currency. -/
theorem Inspectable.shown_in (h : Inspectable db) (currency : Option String) :
    (((ledgerJoins db).filter (·.shownIn currency)).filterMap (·.attribution)).Perm
      (attributionsIn db currency) := by
  rw [List.filter_congr fun r hr => h.shownIn_eq hr currency, filterMap_filter_any]
  exact h.attributions_shown.filter _

theorem Inspectable.countP_shown_in (h : Inspectable db) (currency : Option String)
    (p : CounterfactualAttribution → Bool) :
    (ledgerJoins db).countP (fun r => r.shownIn currency && r.attribution.any p) =
      (attributionsIn db currency).countP p := by
  rw [← (h.shown_in currency).countP_eq, ← countP_any, List.countP_filter]
  exact List.countP_congr fun r _ => by rw [Bool.and_comm]

theorem Inspectable.sumsLedger (h : Inspectable db) :
    SumsLedger (recoverySummary db) (ledgerRows db) := by
  rw [ledgerRows_all]
  exact {
    avgAttributionConfidence := by
      rw [average_perm (h.attributions_shown.map _)]
      rfl
    rescuedAvgConfidence := by
      have hrescued : ((ledgerJoins db).filter fun r => 0 < r.amount).filterMap (·.attribution) =
          ((ledgerJoins db).filterMap (·.attribution)).filter fun a =>
            0 < a.attributedProtectedGmvMinorUnits := by
        simp only [LedgerRow.amount_pos]
        exact filterMap_filter_any _ _ _
      rw [hrescued, average_perm ((h.attributions_shown.filter _).map _)]
      rfl
    grouped := by
      simp only [recoverySummary, protectedGmvByCurrency_currency]
      exact nodup_currencyOrder _
    complete := fun r hr hsome => by
      simp only [recoverySummary, protectedGmvByCurrency_currency]
      obtain ⟨a, ha⟩ := Option.isSome_iff_exists.mp hsome
      rw [h.ledger_currency hr ha]
      have hshown : a ∈ db.attributions.filter fun a => a.attributionId ∈ latestAttributionIds db :=
        h.attributions_shown.mem_iff.mp (List.mem_filterMap.mpr ⟨r, hr, ha⟩)
      exact mem_currencyOrder (List.mem_map_of_mem hshown)
    amount := fun g hg => by
      rw [sum_amount, ((h.shown_in g.currency).map _).sum_eq]
      exact (mem_protectedGmvByCurrency hg).1
    positive := fun g hg => by
      simp only [LedgerRow.amount_pos]
      rw [h.countP_shown_in]
      exact (mem_protectedGmvByCurrency hg).2.1
    simulated := fun g hg => by
      rw [(mem_protectedGmvByCurrency hg).2.2.1, ← h.countP_shown_in]
      exact List.countP_congr fun r _ => by
        rw [LedgerRow.amount_pos, Bool.and_assoc]
        cases r.attribution <;> simp
    synthetic := fun g hg => by
      rw [(mem_protectedGmvByCurrency hg).2.2.2, ← h.countP_shown_in]
      exact List.countP_congr fun r _ => by
        rw [LedgerRow.amount_pos, Bool.and_assoc]
        cases r.attribution <;> simp
    total := fun n hn => by
      rw [sum_amount, (h.attributions_shown.map _).sum_eq, ← sum_protectedGmvByCurrency]
      exact singleCurrencyAmount_eq_sum hn }

/-- In every store of the live pipeline, the numbers of the recovery summary are those of the
rows of the recovery ledger. -/
theorem recovery_summary_is_of_ledger {policy : InterventionPolicy} {as : List LiveAction}
    {w : LiveWorld} (h : liveRun policy as = some w) :
    CountsLedger (recoverySummary w.db) (ledgerRows w.db) ∧
      SumsLedger (recoverySummary w.db) (ledgerRows w.db) :=
  ⟨(liveRun_inspectable h).countsLedger, (liveRun_inspectable h).sumsLedger⟩

open InspectionExample in
/-- The payment is the one that the summary counts. -/
theorem recovery_summary_is_of_ledger_example : ∃ w, liveRun getDefaultPolicy run = some w ∧
    CountsLedger (recoverySummary w.db) (ledgerRows w.db) ∧
    SumsLedger (recoverySummary w.db) (ledgerRows w.db) ∧
    (recoverySummary w.db).attributionCount = 1 := by
  have hrun : (liveRun getDefaultPolicy run).map (fun w =>
      (recoverySummary w.db).attributionCount) = some 1 := by decide +kernel
  obtain ⟨w, hw, hcount⟩ := Option.map_eq_some_iff.mp hrun
  obtain ⟨hcounts, hsums⟩ := recovery_summary_is_of_ledger hw
  exact ⟨w, hw, hcounts, hsums, hcount⟩

end Numbers

end RevenueRecovery
