import RevenueRecovery.Lib.Restriction
import RevenueRecovery.Services.Calls

/-!
# The rows of one provider

PayPal attempts have keys in a namespace of their own. A row of Stages 5-8 is filed under
PayPal when its source system and all the attempt keys in its columns and ids are PayPal's.

## Main definitions
* `Database.ofProvider` : the rows of PayPal, or those of all other providers.
* `Write.Filed`, `FiledRows` : rows that name attempts of one provider.
-/
namespace RevenueRecovery

open Transaction

/-- The source system is PayPal. -/
def isPaypalSource (sourceSystem : String) : Bool := sourceSystem == paypalSourceSystem

/-- The attempt a command id names. -/
def CommandId.paymentAttemptId (id : CommandId) : String := id.decisionId.paymentAttemptId

/-- What belongs to PayPal; or what belongs to all others, with the tables of Stages 2-4. -/
def Database.ofProvider (paypal : Bool) (db : Database) : Database :=
  { events := db.events.filter fun e => e.isPaypal == paypal
    analytics := if paypal then {} else db.analytics
    attempts := db.attempts.filter fun r => isPaypalSource r.sourceSystem == paypal
    predictions := db.predictions.filter fun p => isPaypalSource p.sourceSystem == paypal
    decisions := db.decisions.filter fun d => isPaypalSource d.sourceSystem == paypal
    commands := db.commands.filter fun c => isPaypalSource c.sourceSystem == paypal
    executionAttempts := db.executionAttempts.filter fun a => isPaypalSource a.sourceSystem == paypal
    observations := db.observations.filter fun o => isPaypalSource o.sourceSystem == paypal
    attributions := db.attributions.filter fun a => isPaypalSource a.sourceSystem == paypal }

/-! ## Filed rows -/

/-- A row of this source system that names these attempts belongs to PayPal, or to others. -/
def FiledUnder (paypal : Bool) (sourceSystem : String) (keys : List String) : Prop :=
  isPaypalSource sourceSystem = paypal ∧ ∀ key ∈ keys, hasPaypalPrefix key = paypal

/-- The write is of rows of PayPal, or of others. Events of PayPal are not in the currency of
the policy's costs, and its decisions do not act. -/
def Write.Filed (policy : InterventionPolicy) (paypal : Bool) : Write → Prop
  | .insertEvent e => e.isPaypal = paypal ∧ (paypal = true → e.currency ≠ policy.costCurrency)
  | .setAnalytics _ => paypal = false
  | .registerAttempt r => FiledUnder paypal r.sourceSystem [r.paymentAttemptId]
  | .appendPrediction p => FiledUnder paypal p.sourceSystem
      [p.paymentAttemptId, p.predictionId.paymentAttemptId]
  | .appendDecision d => FiledUnder paypal d.sourceSystem
        [d.paymentAttemptId, d.decisionId.paymentAttemptId] ∧
      (∀ id, d.stage5PredictionId = some id → hasPaypalPrefix id.paymentAttemptId = paypal) ∧
      (paypal = true → d.decisionType ≠ .act)
  | .insertCommand c => FiledUnder paypal c.sourceSystem
      [c.paymentAttemptId, c.commandId.paymentAttemptId, c.decisionId.paymentAttemptId,
        c.idempotencyKey.paymentAttemptId]
  | .updateCommandStatus id _ _ _ _ => hasPaypalPrefix id.paymentAttemptId = paypal
  | .insertExecutionAttempt a =>
      FiledUnder paypal a.sourceSystem [a.commandId.paymentAttemptId]
  | .insertObservation o => FiledUnder paypal o.sourceSystem
      [o.commandId.paymentAttemptId, o.observationId.commandId.paymentAttemptId]
  | .appendAttribution a => FiledUnder paypal a.sourceSystem
      [a.commandId.paymentAttemptId, a.attributionId.commandId.paymentAttemptId]

/-- Every row is filed under PayPal or under others. -/
structure FiledRows (policy : InterventionPolicy) (db : Database) : Prop where
  events : ∀ e ∈ db.events, ∃ b, (Write.insertEvent e).Filed policy b
  attempts : ∀ r ∈ db.attempts, ∃ b, (Write.registerAttempt r).Filed policy b
  predictions : ∀ p ∈ db.predictions, ∃ b, (Write.appendPrediction p).Filed policy b
  decisions : ∀ d ∈ db.decisions, ∃ b, (Write.appendDecision d).Filed policy b
  commands : ∀ c ∈ db.commands, ∃ b, (Write.insertCommand c).Filed policy b
  executionAttempts : ∀ a ∈ db.executionAttempts, ∃ b, (Write.insertExecutionAttempt a).Filed policy b
  observations : ∀ o ∈ db.observations, ∃ b, (Write.insertObservation o).Filed policy b
  attributions : ∀ a ∈ db.attributions, ∃ b, (Write.appendAttribution a).Filed policy b

section Filed
variable {policy : InterventionPolicy} {paypal b : Bool} {sourceSystem : String}
  {keys : List String} {db : Database} {w : Write}

theorem FiledRows.empty (policy : InterventionPolicy) : FiledRows policy {} := by
  constructor <;> simp

theorem FiledUnder.source_eq (h : FiledUnder b sourceSystem keys) (key : String)
    (hkey : key ∈ keys) : isPaypalSource sourceSystem = hasPaypalPrefix key := by
  rw [h.1, h.2 key hkey]

/-- A key that a row names tells its provider. -/
theorem source_of_key (key : String) (h : ∃ b, FiledUnder b sourceSystem keys) (hmem : key ∈ keys)
    (hkey : hasPaypalPrefix key = paypal) : (isPaypalSource sourceSystem == paypal) = true := by
  obtain ⟨b, hfiled⟩ := h
  rw [hfiled.source_eq key hmem, hkey]
  exact beq_self_eq_true paypal

private theorem forall_snoc {α : Type} {p : α → Prop} {rows : List α} {row : α}
    (h : ∀ a ∈ rows, p a) (hrow : p row) : ∀ a ∈ rows ++ [row], p a := by
  intro a ha
  rcases List.mem_append.mp ha with ha | ha
  · exact h a ha
  · exact List.mem_singleton.mp ha ▸ hrow

/-- Filed writes keep the rows filed. -/
theorem FiledRows.apply (h : FiledRows policy db) (hw : w.Filed policy b) :
    FiledRows policy (db.apply w) := by
  cases w with
  | insertEvent e => exact { h with events := forall_snoc h.events ⟨b, hw⟩ }
  | setAnalytics tables => exact { h with }
  | registerAttempt r =>
      simp only [Database.apply]
      split
      · exact h
      · exact { h with attempts := forall_snoc h.attempts ⟨b, hw⟩ }
  | appendPrediction p => exact { h with predictions := forall_snoc h.predictions ⟨b, hw⟩ }
  | appendDecision d => exact { h with decisions := forall_snoc h.decisions ⟨b, hw⟩ }
  | insertCommand c => exact { h with commands := forall_snoc h.commands ⟨b, hw⟩ }
  | updateCommandStatus id expected target reason at' =>
      refine { h with commands := fun c hc => ?_ }
      obtain ⟨c₀, hc₀, rfl⟩ := List.mem_map.mp hc
      have hfiled := h.commands c₀ hc₀
      split <;> exact hfiled
  | insertExecutionAttempt a =>
      exact { h with executionAttempts := forall_snoc h.executionAttempts ⟨b, hw⟩ }
  | insertObservation o => exact { h with observations := forall_snoc h.observations ⟨b, hw⟩ }
  | appendAttribution a => exact { h with attributions := forall_snoc h.attributions ⟨b, hw⟩ }

/-- The registry row of a key is among the rows of the key's provider. -/
theorem findAttempt_ofProvider (h : FiledRows policy db) {key : String}
    (hkey : hasPaypalPrefix key = paypal) :
    (db.ofProvider paypal).findAttempt key = db.findAttempt key := by
  refine Table.find?_filter_of_imp fun r hr hrow => ?_
  exact source_of_key r.paymentAttemptId (h.attempts r hr) (by simp)
    (of_decide_eq_true hrow ▸ hkey)

/-- Own writes change the rows of the provider as they change all rows. -/
theorem FiledRows.ofProvider_apply (h : FiledRows policy db) (hw : w.Filed policy paypal) :
    (db.apply w).ofProvider paypal = (db.ofProvider paypal).apply w := by
  cases w with
  | insertEvent e => simp [Database.ofProvider, Database.apply, List.filter_append, hw.1]
  | setAnalytics tables =>
      obtain rfl : paypal = false := hw
      rfl
  | registerAttempt r =>
      have hfind := findAttempt_ofProvider h (hw.2 _ List.mem_cons_self)
      simp only [Database.apply, hfind]
      split
      · rfl
      · simp [Database.ofProvider, List.filter_append, hw.1]
  | updateCommandStatus id expected target reason at' =>
      simp only [Database.ofProvider, Database.apply, List.filter_map]
      congr 2
      refine List.filter_congr fun c hc => ?_
      simp only [Function.comp_apply]
      split <;> rfl
  | appendPrediction p => simp [Database.ofProvider, Database.apply, List.filter_append, hw.1]
  | appendDecision d => simp [Database.ofProvider, Database.apply, List.filter_append, hw.1.1]
  | insertCommand c => simp [Database.ofProvider, Database.apply, List.filter_append, hw.1]
  | insertExecutionAttempt a =>
      simp [Database.ofProvider, Database.apply, List.filter_append, hw.1]
  | insertObservation o => simp [Database.ofProvider, Database.apply, List.filter_append, hw.1]
  | appendAttribution a => simp [Database.ofProvider, Database.apply, List.filter_append, hw.1]

/-- Writes of others leave the rows of the provider as they are. -/
theorem FiledRows.ofProvider_apply_other (h : FiledRows policy db) (hw : w.Filed policy (!paypal)) :
    (db.apply w).ofProvider paypal = db.ofProvider paypal := by
  cases w with
  | insertEvent e => simp [Database.ofProvider, Database.apply, List.filter_append, hw.1]
  | setAnalytics tables =>
      obtain rfl : paypal = true := by simpa [Write.Filed] using hw
      rfl
  | registerAttempt r =>
      simp only [Database.apply]
      split
      · rfl
      · simp [Database.ofProvider, List.filter_append, hw.1]
  | updateCommandStatus id expected target reason at' =>
      have hrow : ∀ c ∈ db.commands.filter fun c => isPaypalSource c.sourceSystem == paypal,
          (if c.commandId = id ∧ c.commandStatus = expected then c.setStatus target reason at'
            else c) = c := by
        intro c hc
        obtain ⟨hmem, hsource⟩ := List.mem_filter.mp hc
        obtain ⟨b, hfiled⟩ := h.commands c hmem
        have hkey := hfiled.source_eq c.commandId.paymentAttemptId (by simp)
        refine if_neg fun hid => ?_
        rw [hid.1, hw, eq_of_beq hsource] at hkey
        cases paypal <;> cases hkey
      have hsame : (db.apply (.updateCommandStatus id expected target reason at')).commands.filter
          (fun c => isPaypalSource c.sourceSystem == paypal) =
          db.commands.filter fun c => isPaypalSource c.sourceSystem == paypal := by
        simp only [Database.apply, List.filter_map]
        rw [List.filter_congr (q := fun c => isPaypalSource c.sourceSystem == paypal)]
        · exact (List.map_congr_left hrow).trans (List.map_id' _)
        · intro c hc
          simp only [Function.comp_apply]
          split <;> rfl
      exact congrArg (fun commands => { db.ofProvider paypal with commands := commands }) hsame
  | appendPrediction p => simp [Database.ofProvider, Database.apply, List.filter_append, hw.1]
  | appendDecision d => simp [Database.ofProvider, Database.apply, List.filter_append, hw.1.1]
  | insertCommand c => simp [Database.ofProvider, Database.apply, List.filter_append, hw.1]
  | insertExecutionAttempt a =>
      simp [Database.ofProvider, Database.apply, List.filter_append, hw.1]
  | insertObservation o => simp [Database.ofProvider, Database.apply, List.filter_append, hw.1]
  | appendAttribution a => simp [Database.ofProvider, Database.apply, List.filter_append, hw.1]

/-- No write of a session conflicts with a row of another provider. -/
theorem FiledRows.violates_ofProvider (h : FiledRows policy db) (hw : w.Filed policy paypal)
    (hevent : w.event? = none) : (db.ofProvider paypal).violates w = db.violates w := by
  cases w with
  | insertEvent e => cases hevent
  | setAnalytics tables => rfl
  | registerAttempt r => rfl
  | updateCommandStatus => rfl
  | appendPrediction p =>
      refine Table.any_filter_of_imp fun q hq hsame => ?_
      simp only [FailurePrediction.sameVersion, Bool.or_eq_true, Bool.and_eq_true, beq_iff_eq]
        at hsame
      rcases hsame with hid | ⟨⟨hkey, -⟩, -⟩
      · exact source_of_key q.predictionId.paymentAttemptId (h.predictions q hq) (by simp)
          (hid ▸ hw.2 _ (by simp))
      · exact source_of_key q.paymentAttemptId (h.predictions q hq) (by simp)
          (hkey ▸ hw.2 _ (by simp))
  | appendDecision d =>
      refine Table.any_filter_of_imp fun e he hsame => ?_
      have hrow : ∃ b, FiledUnder b e.sourceSystem
          [e.paymentAttemptId, e.decisionId.paymentAttemptId] := (h.decisions e he).imp fun _ h => h.1
      simp only [InterventionDecision.sameVersion, Bool.or_eq_true, Bool.and_eq_true, beq_iff_eq]
        at hsame
      rcases hsame with hid | ⟨⟨hkey, -⟩, -⟩
      · exact source_of_key e.decisionId.paymentAttemptId hrow (by simp)
          (hid ▸ hw.1.2 _ (by simp))
      · exact source_of_key e.paymentAttemptId hrow (by simp) (hkey ▸ hw.1.2 _ (by simp))
  | insertCommand c =>
      refine Table.any_filter_of_imp fun e he hsame => ?_
      simp only [InterventionCommand.sameIdentity, Bool.or_eq_true, Bool.and_eq_true, beq_iff_eq]
        at hsame
      rcases hsame with ((hid | hid) | hid) | ⟨⟨hkey, -⟩, -⟩
      · exact source_of_key e.commandId.paymentAttemptId (h.commands e he) (by simp)
          (hid ▸ hw.2 _ (by simp))
      · exact source_of_key e.decisionId.paymentAttemptId (h.commands e he) (by simp)
          (hid ▸ hw.2 _ (by simp))
      · exact source_of_key e.idempotencyKey.paymentAttemptId (h.commands e he) (by simp)
          (hid ▸ hw.2 _ (by simp))
      · exact source_of_key e.paymentAttemptId (h.commands e he) (by simp)
          (hkey ▸ hw.2 _ (by simp))
  | insertExecutionAttempt a =>
      refine Table.any_filter_of_imp fun e he hsame => ?_
      simp only [ExecutionAttempt.sameNumber, Bool.and_eq_true, beq_iff_eq] at hsame
      exact source_of_key e.commandId.paymentAttemptId (h.executionAttempts e he) (by simp)
        (hsame.1 ▸ hw.2 _ (by simp))
  | insertObservation o =>
      refine Table.any_filter_of_imp fun e he hsame => ?_
      simp only [PaymentOutcomeObservation.sameVersion, Bool.or_eq_true, Bool.and_eq_true,
        beq_iff_eq] at hsame
      rcases hsame with hid | ⟨hid, -⟩
      · exact source_of_key e.observationId.commandId.paymentAttemptId (h.observations e he)
          (by simp) (hid ▸ hw.2 _ (by simp))
      · exact source_of_key e.commandId.paymentAttemptId (h.observations e he) (by simp)
          (hid ▸ hw.2 _ (by simp))
  | appendAttribution a =>
      refine Table.any_filter_of_imp fun e he hsame => ?_
      simp only [CounterfactualAttribution.sameVersion, Bool.or_eq_true, Bool.and_eq_true,
        beq_iff_eq] at hsame
      rcases hsame with hid | ⟨hid, -⟩
      · exact source_of_key e.attributionId.commandId.paymentAttemptId (h.attributions e he)
          (by simp) (hid ▸ hw.2 _ (by simp))
      · exact source_of_key e.commandId.paymentAttemptId (h.attributions e he) (by simp)
          (hid ▸ hw.2 _ (by simp))

end Filed

end RevenueRecovery
