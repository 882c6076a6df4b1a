import Mathlib.Algebra.Order.Field.Rat
import Mathlib.Data.List.Sort
import RevenueRecovery.Database

/-!
# Stage 2: payment health analytics

For a five-minute window the events are grouped into the segments of six
dimensions; each segment becomes a snapshot with its counts, amounts, rates and the
median success rate of the same window in the previous four weeks.

## Main definitions
* `calculateHealthMetricsForWindow` : the snapshots of a window.
* `calculateBaseline` : the median of the historical success rates.
* `calculateAndSaveWindow` : the snapshot table after a window is recalculated.
-/
namespace RevenueRecovery

def minTransactionThreshold : ℕ := 50

/-- The dimensions events are grouped by, as snapshots name them. -/
def healthDimensions : List String :=
  ["GLOBAL", "currency", "payment_method", "bank", "wallet", "error_source"]

/-- The event attribute named by a dimension. -/
def eventAttribute (e : PaymentEvent) (dimension : String) : Option String :=
  if dimension = "currency" then some e.currency
  else if dimension = "payment_method" then e.paymentMethod
  else if dimension = "bank" then e.bank
  else if dimension = "wallet" then e.wallet
  else if dimension = "error_source" then e.errorSource
  else none

def getSegmentValue (e : PaymentEvent) (dimension : String) : String :=
  if dimension = "GLOBAL" then "ALL" else (eventAttribute e dimension).getD "NULL"

/-- `a / b` for counts, `none` when the denominator is zero. -/
def rate (a b : ℕ) : Option ℚ := if b = 0 then none else some ((a : ℚ) / (b : ℚ))

/-- The snapshot of one segment, its baseline not yet known. -/
def segmentSnapshot (windowStart windowEnd : Time) (dimension value : String)
    (threshold : ℕ) (segmentEvents : List PaymentEvent) : PaymentHealthSnapshot :=
  let captured := segmentEvents.filter fun e => e.eventType = capturedEventType
  let failed := segmentEvents.filter fun e => e.eventType = failedEventType
  let total := captured.length + failed.length
  let successfulGmv := (captured.map (·.amountMinorUnits)).sum
  let failedGmv := (failed.map (·.amountMinorUnits)).sum
  { windowStart := windowStart
    windowEnd := windowEnd
    segmentDimension := dimension
    segmentValue := value
    transactionCount := total
    successfulTransactionCount := captured.length
    failedTransactionCount := failed.length
    successRate := rate captured.length total
    failureRate := rate failed.length total
    totalGmvMinorUnits := successfulGmv + failedGmv
    successfulGmvMinorUnits := successfulGmv
    failedGmvMinorUnits := failedGmv
    baselineSuccessRate := none
    insufficientVolume := total < threshold }

/-- The values a dimension takes on the events, in order of first occurrence. -/
def segmentValues (events : List PaymentEvent) (dimension : String) : List String :=
  ((events.map fun e => getSegmentValue e dimension).reverse.dedup).reverse

/-- The snapshots of a window. Without any event there is still an empty global one. -/
def calculateHealthMetricsForWindow (events : List PaymentEvent)
    (windowStart windowEnd : Time) (threshold : ℕ) : List PaymentHealthSnapshot :=
  let inWindow := events.filter fun e => windowStart ≤ e.timestamp ∧ e.timestamp < windowEnd
  healthDimensions.flatMap fun dimension =>
    let values :=
      if events = [] ∧ dimension = "GLOBAL" then ["ALL"] else segmentValues inWindow dimension
    values.map fun value =>
      segmentSnapshot windowStart windowEnd dimension value threshold
        (inWindow.filter fun e => getSegmentValue e dimension = value)

/-- `statistics.median` of a nonempty list. -/
def median (xs : List ℚ) : Option ℚ :=
  let sorted := xs.insertionSort (· ≤ ·)
  if sorted.length % 2 = 1 then sorted[sorted.length / 2]?
  else do
    let lower ← sorted[sorted.length / 2 - 1]?
    let upper ← sorted[sorted.length / 2]?
    return (lower + upper) / 2

/-- The median success rate of the snapshots that have one. -/
def calculateBaseline (historical : List PaymentHealthSnapshot) : Option ℚ :=
  median (historical.filterMap (·.successRate))

/-! ## Repository -/

def getEventsInWindow (events : List PaymentEvent) (windowStart windowEnd : Time) :
    List PaymentEvent :=
  events.filter fun e =>
    windowStart ≤ e.timestamp ∧ e.timestamp < windowEnd ∧ e.inRazorpayPipeline

/-- The starts of the same window in the previous weeks. -/
def historicalStarts (windowStart : Time) (weeksBack : ℕ) : List Time :=
  (List.range weeksBack).map fun i => windowStart - Time.weeks (i + 1)

def getHistoricalSnapshots (snapshots : List PaymentHealthSnapshot) (targetWindowStart : Time)
    (dimension value : String) (weeksBack : ℕ) : List PaymentHealthSnapshot :=
  snapshots.filter fun s => s.windowStart ∈ historicalStarts targetWindowStart weeksBack ∧
    s.segmentDimension = dimension ∧ s.segmentValue = value

/-- `uq_snapshot_identity`. -/
def PaymentHealthSnapshot.identity (s : PaymentHealthSnapshot) :
    Time × Time × String × String :=
  (s.windowStart, s.windowEnd, s.segmentDimension, s.segmentValue)

/-- Insert the snapshots, replacing stored ones of the same window and segment. -/
def upsertSnapshots (stored new : List PaymentHealthSnapshot) : List PaymentHealthSnapshot :=
  new.foldl (fun table s => Table.upsert PaymentHealthSnapshot.identity (fun _ s => s) s table)
    stored

/-! ## Service -/

/-- The snapshot with the baseline of its segment's historical windows. -/
def withBaseline (stored : List PaymentHealthSnapshot) (s : PaymentHealthSnapshot) :
    PaymentHealthSnapshot :=
  let historical :=
    getHistoricalSnapshots stored s.windowStart s.segmentDimension s.segmentValue 4
  { s with baselineSuccessRate := calculateBaseline historical }

/-- The snapshots of a window with their baselines. -/
def windowSnapshots (events : List PaymentEvent) (stored : List PaymentHealthSnapshot)
    (windowStart windowEnd : Time) : List PaymentHealthSnapshot :=
  (calculateHealthMetricsForWindow (getEventsInWindow events windowStart windowEnd)
    windowStart windowEnd minTransactionThreshold).map (withBaseline stored)

/-- Recalculate a window from the stored events and upsert its snapshots. -/
def calculateAndSaveWindow (events : List PaymentEvent) (stored : List PaymentHealthSnapshot)
    (windowStart windowEnd : Time) : List PaymentHealthSnapshot :=
  upsertSnapshots stored (windowSnapshots events stored windowStart windowEnd)

/-! ## Rows of the table -/

/-- A row of the table after an upsert was stored before or is new. -/
theorem mem_upsertSnapshots {stored new : List PaymentHealthSnapshot} {s : PaymentHealthSnapshot}
    (h : s ∈ upsertSnapshots stored new) : s ∈ stored ∨ s ∈ new := by
  induction new generalizing stored with
  | nil => exact .inl h
  | cons a new ih =>
      rcases ih h with hs | hs
      · rcases (Table.mem_upsert fun _ _ _ => rfl).mp hs with rfl | ⟨hs, -⟩
        · exact .inr List.mem_cons_self
        · exact .inl hs
      · exact .inr (List.mem_cons_of_mem _ hs)

theorem windowSnapshots_dimension {events : List PaymentEvent}
    {stored : List PaymentHealthSnapshot} {windowStart windowEnd : Time}
    {s : PaymentHealthSnapshot} (h : s ∈ windowSnapshots events stored windowStart windowEnd) :
    s.segmentDimension ∈ healthDimensions := by
  obtain ⟨raw, hraw, rfl⟩ := List.mem_map.mp h
  simp only [calculateHealthMetricsForWindow, List.mem_flatMap, List.mem_map] at hraw
  obtain ⟨dimension, hdimension, value, -, rfl⟩ := hraw
  exact hdimension

theorem mem_segmentValues {events : List PaymentEvent} {dimension value : String} :
    value ∈ segmentValues events dimension ↔
      ∃ e ∈ events, getSegmentValue e dimension = value := by
  simp [segmentValues]

/-- The snapshots of a window are of distinct segments. -/
theorem nodup_calculateHealthMetricsForWindow (events : List PaymentEvent)
    (windowStart windowEnd : Time) (threshold : ℕ) :
    ((calculateHealthMetricsForWindow events windowStart windowEnd threshold).map
      PaymentHealthSnapshot.identity).Nodup := by
  unfold calculateHealthMetricsForWindow
  dsimp only
  rw [List.map_flatMap, List.nodup_flatMap]
  refine ⟨fun dimension _ => ?_, ?_⟩
  · rw [List.map_map]
    refine List.Nodup.map (fun a b hab => ?_) ?_
    · simpa [PaymentHealthSnapshot.identity, segmentSnapshot] using hab
    · split
      · simp
      · exact List.nodup_reverse.mpr (List.nodup_dedup _)
  · have hdims : healthDimensions.Nodup := by decide
    refine hdims.imp fun hne => ?_
    intro identity hmem hmem'
    simp only [List.map_map, List.mem_map, Function.comp_apply] at hmem hmem'
    obtain ⟨value, -, rfl⟩ := hmem
    obtain ⟨value', -, heq⟩ := hmem'
    simp only [PaymentHealthSnapshot.identity, segmentSnapshot, Prod.mk.injEq] at heq
    exact hne heq.2.2.1.symm

end RevenueRecovery
