import Mathlib.Data.Prod.Lex
import RevenueRecovery.Database

/-!
# Stage 5: terminal labels

The outcome of a payment after a time `T` is read by two queries: one labels the samples of
a training set, the other evaluates predictions. Both take the terminal event that was
ingested first within half an hour; only the second counts an event ingested at `T` itself.

## Main definitions
* `getTerminalLabel` : the label of a training sample.
* `lookupTerminalLabel` : the label of a prediction.
* `LabelsAgree` : the two labels are the same, in whatever order the queries scan the table.
-/
namespace RevenueRecovery

/-! ## The two labels -/

/-- The events a training set is drawn from: every source but PayPal, or Razorpay only. -/
inductive TrainingPopulation
  | syntheticDevelopment
  | providerEvaluation
deriving DecidableEq, Repr

/-- Errors of the extraction of a training set. -/
inductive ExtractionError
  | evaluationIsolation
deriving DecidableEq, Repr

/-- A training run: its population, and whether its snapshot transaction is current. -/
structure Stage5PipelineValidator where
  population : TrainingPopulation
  snapshotIsCurrent : Bool
deriving DecidableEq, Repr

namespace Stage5PipelineValidator

def providerEvaluation (v : Stage5PipelineValidator) : Bool :=
  v.population == .providerEvaluation

def requireProviderSnapshot (v : Stage5PipelineValidator) : Except ExtractionError Unit :=
  if v.providerEvaluation && !v.snapshotIsCurrent then .error .evaluationIsolation else .ok ()

end Stage5PipelineValidator

/-- A terminal event of the payment from a source of the Razorpay pipeline. -/
def isLabelEvent (paymentId : String) (e : PaymentEvent) : Bool :=
  e.paymentId == paymentId && e.isTerminal && e.inRazorpayPipeline

/-- One for a failure, zero for a capture. -/
def labelOf (e : PaymentEvent) : ℤ := if e.eventType = failedEventType then 1 else 0

/-- The earliest terminal event strictly after `T`: its label, or `-1` when unresolved. -/
def getTerminalLabel (v : Stage5PipelineValidator) (r : Reads) (paymentId : String)
    (authIngestedAt : Time) : Except ExtractionError ℤ := do
  v.requireProviderSnapshot
  let rows := r.rows 0 (·.events) fun e => isLabelEvent paymentId e &&
    e.ingestedAt > authIngestedAt && e.ingestedAt ≤ authIngestedAt + Time.minutes 30 &&
    (!v.providerEvaluation || e.sourceSystem == razorpaySourceSystem)
  let terminalEvent :=
    if v.providerEvaluation then Table.earliestBy (fun e => toLex (e.ingestedAt, e.eventId)) rows
    else Table.earliestBy (·.ingestedAt) rows
  return terminalEvent.elim (-1) labelOf

/-- The outcome of the payment within the observation window after `T`. -/
def lookupTerminalLabel (r : Reads) (paymentAttemptId : String) (t : Time)
    (observationWindowMinutes : Option ℤ := some 30) : Option ℤ :=
  let rows := r.rows 0 (·.events) fun e => isLabelEvent paymentAttemptId e &&
    e.ingestedAt ≥ t &&
    observationWindowMinutes.all fun minutes => e.ingestedAt ≤ t + Time.minutes minutes
  (Table.earliestBy (·.ingestedAt) rows).map labelOf

/-! ## Agreement -/

/-- Both failure, both capture, or both absent. -/
def SameLabel (training : ℤ) (evaluation : Option ℤ) : Prop :=
  training = 1 ∧ evaluation = some 1 ∨ training = 0 ∧ evaluation = some 0 ∨
    training = -1 ∧ evaluation = none

/-- A training set of the development population labels the payment after `T` as an
evaluation does, whatever the order in which the two queries scan the events. -/
def LabelsAgree (db : Database) (paymentId : String) (t : Time) : Prop :=
  ∀ v : Stage5PipelineValidator, v.population = .syntheticDevelopment →
    ∀ r r' : Reads, r.db 0 = db → r'.db 0 = db →
      ∃ label, getTerminalLabel v r paymentId t = .ok label ∧
        SameLabel label (lookupTerminalLabel r' paymentId t)

/-- The event is among the first ingested of those that satisfy `p`. -/
def IngestedFirst (db : Database) (p : PaymentEvent → Bool) (e : PaymentEvent) : Prop :=
  (e ∈ db.events ∧ p e = true) ∧ ∀ f ∈ db.events, p f = true → e.ingestedAt ≤ f.ingestedAt

/-- A label event within half an hour after `t`. -/
def labelAfter (paymentId : String) (t : Time) (e : PaymentEvent) : Bool :=
  isLabelEvent paymentId e && e.ingestedAt > t && e.ingestedAt ≤ t + Time.minutes 30

/-- A label event at `t` or within half an hour after it. -/
def labelFrom (paymentId : String) (t : Time) (e : PaymentEvent) : Bool :=
  isLabelEvent paymentId e && e.ingestedAt ≥ t && e.ingestedAt ≤ t + Time.minutes 30

section Labels
variable {db : Database} {paymentId : String} {t : Time}

theorem IngestedFirst.of_earliestBy {p : PaymentEvent → Bool} {r : Reads} {e : PaymentEvent}
    (hdb : r.db 0 = db)
    (h : Table.earliestBy (·.ingestedAt) (r.rows 0 (·.events) p) = some e) :
    IngestedFirst db p e := by
  obtain ⟨hmem, hmin⟩ := Table.earliestBy_spec h
  rw [Reads.mem_rows, hdb] at hmem
  refine ⟨hmem, fun f hf hp => hmin f ?_⟩
  rw [Reads.mem_rows, hdb]
  exact ⟨hf, hp⟩

/-- Any of the first events can be the one a query returns. -/
theorem IngestedFirst.exists_reads {p : PaymentEvent → Bool} {e : PaymentEvent}
    (h : IngestedFirst db p e) : ∃ r : Reads, r.db 0 = db ∧
      Table.earliestBy (·.ingestedAt) (r.rows 0 (·.events) p) = some e := by
  obtain ⟨order, rest, hscan⟩ :=
    Table.exists_scan_cons (List.mem_filter.mpr ⟨h.1.1, h.1.2⟩)
  refine ⟨{ db := fun _ => db, order := fun _ => order }, rfl, ?_⟩
  have hrows : Reads.rows { db := fun _ => db, order := fun _ => order } 0 (·.events) p =
      e :: rest := hscan
  rw [hrows]
  refine Table.earliestBy_cons_of_min fun f hf => ?_
  have hmem : f ∈ db.events.filter p := Table.mem_scan.mp (hscan ▸ List.mem_cons_of_mem _ hf)
  exact h.2 f (List.mem_filter.mp hmem).1 (List.mem_filter.mp hmem).2

theorem getTerminalLabel_eq {v : Stage5PipelineValidator} {r : Reads}
    (hv : v.population = .syntheticDevelopment) :
    getTerminalLabel v r paymentId t = .ok ((Table.earliestBy (·.ingestedAt)
      (r.rows 0 (·.events) (labelAfter paymentId t))).elim (-1) labelOf) := by
  have hprovider : v.providerEvaluation = false := by
    rw [Stage5PipelineValidator.providerEvaluation, hv]
    rfl
  simp only [getTerminalLabel, Stage5PipelineValidator.requireProviderSnapshot, hprovider,
    Bool.false_and, Bool.false_eq_true, if_false, Bool.not_false, Bool.true_or, Bool.and_true]
  rfl

theorem lookupTerminalLabel_eq {r : Reads} :
    lookupTerminalLabel r paymentId t = (Table.earliestBy (·.ingestedAt)
      (r.rows 0 (·.events) (labelFrom paymentId t))).map labelOf := rfl

theorem labelFrom_of_labelAfter {e : PaymentEvent} (h : labelAfter paymentId t e = true) :
    labelFrom paymentId t e = true := by
  simp only [labelAfter, labelFrom, Bool.and_eq_true, decide_eq_true_eq] at h ⊢
  exact ⟨⟨h.1.1, le_of_lt h.1.2⟩, h.2⟩

theorem labelAfter_of_labelFrom {e : PaymentEvent} (h : labelFrom paymentId t e = true)
    (hne : e.ingestedAt ≠ t) : labelAfter paymentId t e = true := by
  simp only [labelAfter, labelFrom, Bool.and_eq_true, decide_eq_true_eq] at h ⊢
  exact ⟨⟨h.1.1, lt_of_le_of_ne h.1.2 (Ne.symm hne)⟩, h.2⟩

theorem eventType_of_labelFrom {e : PaymentEvent} (h : labelFrom paymentId t e = true) :
    e.eventType = capturedEventType ∨ e.eventType = failedEventType := by
  simp only [labelFrom, isLabelEvent, Bool.and_eq_true] at h
  simpa [PaymentEvent.isTerminal, terminalEventTypes] using h.1.1.1.2

/-- The labels of terminal events are the same exactly when their types are. -/
theorem sameLabel_labelOf {e f : PaymentEvent}
    (he : e.eventType = capturedEventType ∨ e.eventType = failedEventType)
    (hf : f.eventType = capturedEventType ∨ f.eventType = failedEventType) :
    SameLabel (labelOf f) (some (labelOf e)) ↔ e.eventType = f.eventType := by
  have hne : capturedEventType ≠ failedEventType := by decide
  rcases he with he | he <;> rcases hf with hf | hf <;>
    simp [SameLabel, labelOf, he, hf, hne, hne.symm]

/-- The labels agree exactly when a terminal event ingested at `T` is followed by another
one in time, and the events ingested first from `T` on have the type of those ingested first
after `T`. -/
theorem labelsAgree_iff (db : Database) (paymentId : String) (t : Time) :
    LabelsAgree db paymentId t ↔
      (∀ e ∈ db.events, isLabelEvent paymentId e = true → e.ingestedAt = t →
        ∃ f ∈ db.events, labelAfter paymentId t f = true) ∧
      ∀ e f, IngestedFirst db (labelFrom paymentId t) e →
        IngestedFirst db (labelAfter paymentId t) f → e.eventType = f.eventType := by
  constructor
  · intro hagree
    constructor
    · intro e he hlabel hat
      by_contra hnone
      simp only [not_exists, not_and] at hnone
      obtain ⟨label, htraining, hsame⟩ := hagree ⟨.syntheticDevelopment, true⟩ rfl (.all db)
        (.all db) rfl rfl
      have hfrom : labelFrom paymentId t e = true := by
        have hhorizon : (0 : ℤ) ≤ Time.minutes 30 := by decide
        simp only [labelFrom, hlabel, hat, Bool.true_and, Bool.and_eq_true, decide_eq_true_eq]
        exact ⟨le_rfl, Int.le_add_of_nonneg_right hhorizon⟩
      have hafter : Table.earliestBy (·.ingestedAt)
          ((Reads.all db).rows 0 (·.events) (labelAfter paymentId t)) = none := by
        rw [Table.earliestBy_eq_none, List.eq_nil_iff_forall_not_mem]
        intro f hf
        exact hnone f (Reads.mem_rows.mp hf).1 (Reads.mem_rows.mp hf).2
      rw [getTerminalLabel_eq rfl, hafter] at htraining
      obtain rfl : (-1 : ℤ) = label := by simpa using htraining
      have habsent : lookupTerminalLabel (.all db) paymentId t = none := by
        rcases hsame with ⟨h, -⟩ | ⟨h, -⟩ | ⟨-, h⟩
        · cases h
        · cases h
        · exact h
      rw [lookupTerminalLabel_eq, Option.map_eq_none_iff, Table.earliestBy_eq_none,
        List.eq_nil_iff_forall_not_mem] at habsent
      exact habsent e (Reads.mem_rows.mpr ⟨he, hfrom⟩)
    · intro e f he hf
      obtain ⟨r, hdb, hr⟩ := hf.exists_reads
      obtain ⟨r', hdb', hr'⟩ := he.exists_reads
      obtain ⟨label, htraining, hsame⟩ := hagree ⟨.syntheticDevelopment, true⟩ rfl r r' hdb hdb'
      rw [getTerminalLabel_eq rfl, hr] at htraining
      obtain rfl : labelOf f = label := by simpa using htraining
      rw [lookupTerminalLabel_eq, hr'] at hsame
      exact (sameLabel_labelOf (eventType_of_labelFrom he.1.2)
        (eventType_of_labelFrom (labelFrom_of_labelAfter hf.1.2))).mp hsame
  · rintro ⟨hfollowed, htypes⟩ v hv r r' hdb hdb'
    refine ⟨_, getTerminalLabel_eq hv, ?_⟩
    rw [lookupTerminalLabel_eq]
    cases htraining : Table.earliestBy (·.ingestedAt)
        (r.rows 0 (·.events) (labelAfter paymentId t)) with
    | none =>
        rw [Table.earliestBy_eq_none, List.eq_nil_iff_forall_not_mem] at htraining
        have hno : ∀ f ∈ db.events, ¬ labelAfter paymentId t f = true := fun f hf hafter =>
          htraining f (Reads.mem_rows.mpr ⟨hdb ▸ hf, hafter⟩)
        have hnil : Table.earliestBy (·.ingestedAt)
            (r'.rows 0 (·.events) (labelFrom paymentId t)) = none := by
          rw [Table.earliestBy_eq_none, List.eq_nil_iff_forall_not_mem]
          intro e he
          obtain ⟨hmem, hfrom⟩ := Reads.mem_rows.mp he
          rw [hdb'] at hmem
          by_cases hat : e.ingestedAt = t
          · have hlabel : isLabelEvent paymentId e = true := by
              simp only [labelFrom, Bool.and_eq_true] at hfrom
              exact hfrom.1.1
            obtain ⟨f, hf, hafter⟩ := hfollowed e hmem hlabel hat
            exact hno f hf hafter
          · exact hno e hmem (labelAfter_of_labelFrom hfrom hat)
        rw [hnil]
        exact .inr (.inr ⟨rfl, rfl⟩)
    | some f =>
        have hf := IngestedFirst.of_earliestBy hdb htraining
        cases hlookup : Table.earliestBy (·.ingestedAt)
            (r'.rows 0 (·.events) (labelFrom paymentId t)) with
        | none =>
            rw [Table.earliestBy_eq_none, List.eq_nil_iff_forall_not_mem] at hlookup
            refine absurd (Reads.mem_rows.mpr ⟨?_, labelFrom_of_labelAfter hf.1.2⟩) (hlookup f)
            exact hdb'.symm ▸ hf.1.1
        | some e =>
            have he := IngestedFirst.of_earliestBy hdb' hlookup
            exact (sameLabel_labelOf (eventType_of_labelFrom he.1.2)
              (eventType_of_labelFrom (labelFrom_of_labelAfter hf.1.2))).mpr (htypes e f he hf)

end Labels

/-! ### An outcome at the moment of the prediction -/

namespace LabelExample

/-- A failure ingested at `t` microseconds. -/
def failed (t : Time) : PaymentEvent :=
  { eventId := 0, sourceSystem := razorpaySourceSystem, sourceEventId := "evt",
    paymentId := "pay", timestamp := t, eventType := failedEventType, currency := "INR",
    amountMinorUnits := 10000, paymentStatus := "failed", ingestedAt := t }

end LabelExample

open LabelExample in
/-- A failure ingested at `T` is unresolved in training and a failure in evaluation. -/
theorem labels_disagree : ¬ ∀ db paymentId t, LabelsAgree db paymentId t := by
  intro hall
  obtain ⟨label, htraining, hsame⟩ := hall { events := [failed 0] } "pay" 0
    ⟨.syntheticDevelopment, true⟩ rfl (.all { events := [failed 0] })
    (.all { events := [failed 0] }) rfl rfl
  have hunresolved : getTerminalLabel ⟨.syntheticDevelopment, true⟩
      (.all { events := [failed 0] }) "pay" 0 = .ok (-1) := by decide +kernel
  have hfailed : lookupTerminalLabel (.all { events := [failed 0] }) "pay" 0 = some 1 := by
    decide +kernel
  rw [hunresolved] at htraining
  obtain rfl : (-1 : ℤ) = label := by simpa using htraining
  rw [hfailed] at hsame
  exact absurd hsame (by simp [SameLabel])

end RevenueRecovery
