import Mathlib.Algebra.Order.BigOperators.Group.List
import RevenueRecovery.Analytics

/-!
# Stage 2: amounts and their columns

An amount of `payment_events` and the amounts of `payment_health_snapshots` are stored in
`Integer` columns of 32 bits. A snapshot holds sums of amounts, which need not fit.

## Main definitions
* `FitsInteger` : the range of an `Integer` column.
* `FitsColumns` : the amounts of a snapshot fit their columns.
* `segmentAmount` : what the events of one type and segment add up to.
-/
namespace RevenueRecovery

/-- The value is in the range of an `Integer` column. -/
def FitsInteger (n : ℤ) : Prop := -2147483648 ≤ n ∧ n ≤ 2147483647

instance (n : ℤ) : Decidable (FitsInteger n) := inferInstanceAs (Decidable (_ ∧ _))

/-- The amounts of the snapshot fit their columns. -/
structure FitsColumns (s : PaymentHealthSnapshot) : Prop where
  total : FitsInteger s.totalGmvMinorUnits
  successful : FitsInteger s.successfulGmvMinorUnits
  failed : FitsInteger s.failedGmvMinorUnits

/-- The events of a window. -/
def eventsOfWindow (events : List PaymentEvent) (windowStart windowEnd : Time) :
    List PaymentEvent :=
  events.filter fun e => windowStart ≤ e.timestamp ∧ e.timestamp < windowEnd

/-- What the amounts of the events of one type add up to. -/
def typeAmount (eventType : String) (events : List PaymentEvent) : ℤ :=
  ((events.filter fun e => e.eventType = eventType).map (·.amountMinorUnits)).sum

/-- What the captured and the failed events add up to. -/
def terminalAmount (events : List PaymentEvent) : ℤ :=
  typeAmount capturedEventType events + typeAmount failedEventType events

/-- The events that have a value in a dimension. -/
def ofSegment (dimension value : String) (events : List PaymentEvent) : List PaymentEvent :=
  events.filter fun e => getSegmentValue e dimension = value

/-- The captured amounts, the failed ones and both together add up to a column value. -/
def AmountsFit (events : List PaymentEvent) : Prop :=
  FitsInteger (typeAmount capturedEventType events) ∧
    FitsInteger (typeAmount failedEventType events) ∧ FitsInteger (terminalAmount events)

section Columns
variable {events : List PaymentEvent} {windowStart windowEnd : Time} {threshold : ℕ}

theorem fitsColumns_segmentSnapshot {dimension value : String} :
    FitsColumns (segmentSnapshot windowStart windowEnd dimension value threshold events) ↔
      AmountsFit events :=
  ⟨fun h => ⟨h.successful, h.failed, h.total⟩, fun h => ⟨h.2.2, h.1, h.2.1⟩⟩

theorem amountsFit_nil : AmountsFit [] := by
  simp [AmountsFit, FitsInteger, terminalAmount, typeAmount]

/-- The amounts of a snapshot fit when those of every segment of the window do. -/
theorem fitsColumns_iff_segments :
    (∀ s ∈ calculateHealthMetricsForWindow events windowStart windowEnd threshold,
        FitsColumns s) ↔
      ∀ dimension ∈ healthDimensions, ∀ value,
        AmountsFit (ofSegment dimension value (eventsOfWindow events windowStart windowEnd)) := by
  constructor
  · intro h dimension hdimension value
    by_cases hvalue : value ∈ segmentValues (eventsOfWindow events windowStart windowEnd) dimension
    · refine fitsColumns_segmentSnapshot.mp (h (segmentSnapshot windowStart windowEnd dimension
        value threshold _) ?_)
      refine List.mem_flatMap.mpr ⟨dimension, hdimension, List.mem_map.mpr ⟨value, ?_, rfl⟩⟩
      split
      · rename_i hempty
        simp [eventsOfWindow, hempty.1, segmentValues] at hvalue
      · exact hvalue
    · have hnil : ofSegment dimension value (eventsOfWindow events windowStart windowEnd) = [] := by
        refine List.filter_eq_nil_iff.mpr fun e he heq => hvalue ?_
        exact mem_segmentValues.mpr ⟨e, he, of_decide_eq_true heq⟩
      rw [hnil]
      exact amountsFit_nil
  · intro h s hs
    obtain ⟨dimension, hdimension, hs⟩ := List.mem_flatMap.mp hs
    obtain ⟨value, -, rfl⟩ := List.mem_map.mp hs
    exact fitsColumns_segmentSnapshot.mpr (h dimension hdimension value)

/-- With no negative amount a part of the events adds up to no more than all of them. -/
theorem typeAmount_sublist (eventType : String) {part : List PaymentEvent}
    (hpart : part.Sublist events) (hnonneg : ∀ e ∈ events, 0 ≤ e.amountMinorUnits) :
    0 ≤ typeAmount eventType part ∧ typeAmount eventType part ≤ typeAmount eventType events := by
  have hsublist := (hpart.filter fun e => e.eventType = eventType).map (·.amountMinorUnits)
  have hge : ∀ n ∈ ((events.filter fun e => e.eventType = eventType).map
      (·.amountMinorUnits)), 0 ≤ n := by
    intro n hn
    obtain ⟨e, he, rfl⟩ := List.mem_map.mp hn
    exact hnonneg e (List.mem_of_mem_filter he)
  exact ⟨List.sum_nonneg fun n hn => hge n (hsublist.subset hn), hsublist.sum_le_sum hge⟩

/-- With no negative amount the sums of a part of the events fit when all of them do. -/
theorem amountsFit_of_terminalAmount {part : List PaymentEvent} (hpart : part.Sublist events)
    (hnonneg : ∀ e ∈ events, 0 ≤ e.amountMinorUnits) (h : terminalAmount events ≤ 2147483647) :
    AmountsFit part := by
  obtain ⟨hc, hc'⟩ := typeAmount_sublist capturedEventType hpart hnonneg
  obtain ⟨hf, hf'⟩ := typeAmount_sublist failedEventType hpart hnonneg
  unfold AmountsFit FitsInteger terminalAmount at *
  omega

/-- The amounts of a window's snapshots fit their columns exactly when in every segment the
captured amounts, the failed ones and both together do; if no amount is negative, exactly
when the captured and failed amounts of the whole window do. -/
theorem snapshots_fit_iff (events : List PaymentEvent) (windowStart windowEnd : Time)
    (threshold : ℕ) :
    ((∀ s ∈ calculateHealthMetricsForWindow events windowStart windowEnd threshold,
        FitsColumns s) ↔
      ∀ dimension ∈ healthDimensions, ∀ value,
        AmountsFit (ofSegment dimension value (eventsOfWindow events windowStart windowEnd))) ∧
    ((∀ e ∈ events, 0 ≤ e.amountMinorUnits) →
      ((∀ s ∈ calculateHealthMetricsForWindow events windowStart windowEnd threshold,
        FitsColumns s) ↔
          terminalAmount (eventsOfWindow events windowStart windowEnd) ≤ 2147483647)) := by
  refine ⟨fitsColumns_iff_segments, fun hnonneg => ?_⟩
  rw [fitsColumns_iff_segments]
  constructor
  · intro h
    have hglobal := (h "GLOBAL" (by decide) "ALL").2.2.2
    have hall : ofSegment "GLOBAL" "ALL" (eventsOfWindow events windowStart windowEnd) =
        eventsOfWindow events windowStart windowEnd :=
      List.filter_eq_self.mpr fun e _ => by simp [getSegmentValue]
    rwa [hall] at hglobal
  · intro h dimension _ value
    exact amountsFit_of_terminalAmount List.filter_sublist
      (fun e he => hnonneg e (List.mem_of_mem_filter he)) h

end Columns

namespace ColumnExample

/-- A captured payment in the first five minutes. -/
def capture (eventId : ℕ) (paymentId : String) (amountMinorUnits : ℤ) : PaymentEvent :=
  { eventId := eventId, sourceSystem := "razorpay", sourceEventId := "evt_" ++ paymentId,
    paymentId := paymentId, timestamp := 0, eventType := capturedEventType,
    currency := "INR", amountMinorUnits := amountMinorUnits, paymentStatus := "captured",
    ingestedAt := 0 }

def window : List PaymentEvent := [capture 1 "pay_1" 50000, capture 2 "pay_2" 70000]

def large : List PaymentEvent := [capture 1 "pay_1" 2000000000, capture 2 "pay_2" 2000000000]

end ColumnExample

open ColumnExample in
theorem snapshots_fit_pair :
    ∀ s ∈ calculateHealthMetricsForWindow window 0 (Time.minutes 5) 50, FitsColumns s :=
  ((snapshots_fit_iff window 0 (Time.minutes 5) 50).2 (by decide)).mpr (by decide)

open ColumnExample in
/-- Two captures that each fit the column of an event add up to more than a snapshot holds. -/
theorem snapshots_overflow :
    ¬ ∀ events windowStart windowEnd threshold, (∀ e ∈ events, FitsInteger e.amountMinorUnits) →
      ∀ s ∈ calculateHealthMetricsForWindow events windowStart windowEnd threshold,
        FitsColumns s := by
  intro hall
  have hfits := hall large 0 (Time.minutes 5) 50 (by decide)
    (segmentSnapshot 0 (Time.minutes 5) "GLOBAL" "ALL" 50 large) (by decide +kernel)
  exact absurd hfits.total (by decide)

end RevenueRecovery
