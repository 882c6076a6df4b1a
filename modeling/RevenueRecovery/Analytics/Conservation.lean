import RevenueRecovery.Analytics
import RevenueRecovery.Lib.Relational

/-!
# Stage 2: nothing is lost or counted twice

The segments of each dimension divide the events of a window, and the windows of the events
divide the events. So the figures of each dimension add up to the global ones, and the global
ones of all windows to those of the whole list, in whatever order the events come
(`healthMetrics_conserve`).

## Main definitions
* `Measures` : the counts and amounts of a snapshot.
* `dimensionMeasures` : the sums over the segments of a dimension.
* `assignedWindows` : the windows of some events.
-/
namespace RevenueRecovery

/-- Transaction, success and failure counts, and total, successful and failed GMV. -/
abbrev Measures := (ℕ × ℕ × ℕ) × ℤ × ℤ × ℤ

def PaymentHealthSnapshot.measures (s : PaymentHealthSnapshot) : Measures :=
  ((s.transactionCount, s.successfulTransactionCount, s.failedTransactionCount),
    s.totalGmvMinorUnits, s.successfulGmvMinorUnits, s.failedGmvMinorUnits)

/-- The sums over the segments of a dimension. -/
def dimensionMeasures (snapshots : List PaymentHealthSnapshot) (dimension : String) : Measures :=
  ((snapshots.filter (·.segmentDimension = dimension)).map (·.measures)).sum

/-- The figures of the captured and failed ones of some events. -/
def terminalMeasures (events : List PaymentEvent) : Measures :=
  let captured := events.filter fun e => e.eventType = capturedEventType
  let failed := events.filter fun e => e.eventType = failedEventType
  let successfulGmv := (captured.map (·.amountMinorUnits)).sum
  let failedGmv := (failed.map (·.amountMinorUnits)).sum
  ((captured.length + failed.length, captured.length, failed.length),
    successfulGmv + failedGmv, successfulGmv, failedGmv)

/-- The windows `_get_window_boundaries` assigns to the events. -/
def assignedWindows (events : List PaymentEvent) : List Time :=
  (events.map fun e => Time.windowStart e.timestamp).dedup

/-! ## Events -/

section Events
variable {events events' : List PaymentEvent} {windowStart windowEnd : Time}
  {dimension value : String} {threshold : ℕ}

theorem terminalMeasures_cons (e : PaymentEvent) (events : List PaymentEvent) :
    terminalMeasures (e :: events) = terminalMeasures [e] + terminalMeasures events := by
  have hne : capturedEventType ≠ failedEventType := by decide
  by_cases hcaptured : e.eventType = capturedEventType
  · have hfailed : e.eventType ≠ failedEventType := hcaptured ▸ hne
    simp [terminalMeasures, hcaptured, hne]
    omega
  · by_cases hfailed : e.eventType = failedEventType
    · simp [terminalMeasures, hfailed, hne.symm]
      omega
    · simp [terminalMeasures, hcaptured, hfailed]

/-- The figures of events are the sums of those of each. -/
theorem terminalMeasures_eq_sum (events : List PaymentEvent) :
    terminalMeasures events = (events.map fun e => terminalMeasures [e]).sum := by
  induction events with
  | nil => rfl
  | cons e events ih => rw [terminalMeasures_cons, ih, List.map_cons, List.sum_cons]

@[simp] theorem measures_segmentSnapshot :
    (segmentSnapshot windowStart windowEnd dimension value threshold events).measures =
      terminalMeasures events := rfl

/-- A snapshot does not tell the order of its events. -/
theorem segmentSnapshot_perm (h : events.Perm events') :
    segmentSnapshot windowStart windowEnd dimension value threshold events =
      segmentSnapshot windowStart windowEnd dimension value threshold events' := by
  have hcaptured := h.filter fun e => e.eventType = capturedEventType
  have hfailed := h.filter fun e => e.eventType = failedEventType
  unfold segmentSnapshot
  dsimp only
  rw [hcaptured.length_eq, hfailed.length_eq, (hcaptured.map _).sum_eq, (hfailed.map _).sum_eq]

theorem nodup_segmentValues (events : List PaymentEvent) (dimension : String) :
    (segmentValues events dimension).Nodup := List.nodup_reverse.mpr (List.nodup_dedup _)

theorem segmentValues_perm (h : events.Perm events') :
    (segmentValues events dimension).Perm (segmentValues events' dimension) := by
  refine (List.perm_ext_iff_of_nodup (nodup_segmentValues ..) (nodup_segmentValues ..)).mpr
    fun value => ?_
  simp only [mem_segmentValues, h.mem_iff]

end Events

/-! ## Windows -/

/-- The events of a half-open window. -/
def inWindow (events : List PaymentEvent) (windowStart windowEnd : Time) : List PaymentEvent :=
  events.filter fun e => windowStart ≤ e.timestamp ∧ e.timestamp < windowEnd

section Windows
variable {events events' : List PaymentEvent} {windowStart windowEnd : Time}
  {dimension : String} {threshold : ℕ}

/-- The snapshots of one dimension. -/
theorem filter_segmentDimension (hdimension : dimension ∈ healthDimensions)
    (hwindow : inWindow events windowStart windowEnd ≠ []) :
    (calculateHealthMetricsForWindow events windowStart windowEnd threshold).filter
        (·.segmentDimension = dimension) =
      (segmentValues (inWindow events windowStart windowEnd) dimension).map fun value =>
        segmentSnapshot windowStart windowEnd dimension value threshold
          ((inWindow events windowStart windowEnd).filter
            fun e => getSegmentValue e dimension = value) := by
  have hevents : events ≠ [] := fun hnil => hwindow (by rw [hnil]; rfl)
  have hnodup : (healthDimensions.map id).Nodup := by decide
  unfold calculateHealthMetricsForWindow
  dsimp only
  simp only [hevents, false_and, if_false]
  refine Table.filter_flatMap_block hnodup (fun dimension _ s hs => ?_) hdimension
  obtain ⟨value, -, rfl⟩ := List.mem_map.mp hs
  rfl

variable (threshold) in
/-- The segments of a dimension divide the events of the window. -/
theorem dimensionMeasures_eq (hdimension : dimension ∈ healthDimensions)
    (hwindow : inWindow events windowStart windowEnd ≠ []) :
    dimensionMeasures (calculateHealthMetricsForWindow events windowStart windowEnd threshold)
      dimension = terminalMeasures (inWindow events windowStart windowEnd) := by
  unfold dimensionMeasures
  rw [filter_segmentDimension hdimension hwindow, List.map_map]
  simp only [Function.comp_def, measures_segmentSnapshot]
  calc _ = ((segmentValues (inWindow events windowStart windowEnd) dimension).map fun value =>
          (((inWindow events windowStart windowEnd).filter
            fun e => getSegmentValue e dimension = value).map fun e => terminalMeasures [e]).sum).sum
        := by simp only [← terminalMeasures_eq_sum]
    _ = ((inWindow events windowStart windowEnd).map fun e => terminalMeasures [e]).sum :=
        Relational.sum_groups _ _ (nodup_segmentValues ..)
          fun e he => mem_segmentValues.mpr ⟨e, he, rfl⟩
    _ = _ := (terminalMeasures_eq_sum _).symm

variable (threshold) in
/-- There is one global snapshot. -/
theorem filter_global (hwindow : inWindow events windowStart windowEnd ≠ []) :
    ∃ g, (calculateHealthMetricsForWindow events windowStart windowEnd threshold).filter
        (·.segmentDimension = "GLOBAL") = [g] ∧ g.segmentValue = "ALL" := by
  have hvalues : segmentValues (inWindow events windowStart windowEnd) "GLOBAL" = ["ALL"] := by
    refine List.perm_singleton.mp ((List.perm_ext_iff_of_nodup (nodup_segmentValues ..)
      (List.nodup_singleton _)).mpr fun value => ?_)
    obtain ⟨e, he⟩ := List.exists_mem_of_ne_nil _ hwindow
    rw [mem_segmentValues, List.mem_singleton]
    constructor
    · rintro ⟨e', -, rfl⟩
      rfl
    · rintro rfl
      exact ⟨e, he, rfl⟩
  rw [filter_segmentDimension (by decide) hwindow, hvalues]
  exact ⟨_, rfl, rfl⟩

/-- The snapshots of a window do not tell the order of the events. -/
theorem calculateHealthMetricsForWindow_perm (h : events.Perm events') :
    (calculateHealthMetricsForWindow events windowStart windowEnd threshold).Perm
      (calculateHealthMetricsForWindow events' windowStart windowEnd threshold) := by
  have hwindow : (inWindow events windowStart windowEnd).Perm
      (inWindow events' windowStart windowEnd) := h.filter _
  have hnil : events = [] ↔ events' = [] := by
    rw [← List.length_eq_zero_iff, h.length_eq, List.length_eq_zero_iff]
  unfold calculateHealthMetricsForWindow
  refine List.Perm.flatMap_left _ fun dimension _ => ?_
  simp only [hnil]
  have hsame : ∀ value, segmentSnapshot windowStart windowEnd dimension value threshold
      ((inWindow events windowStart windowEnd).filter
        fun e => getSegmentValue e dimension = value) =
      segmentSnapshot windowStart windowEnd dimension value threshold
        ((inWindow events' windowStart windowEnd).filter
          fun e => getSegmentValue e dimension = value) :=
    fun value => segmentSnapshot_perm (hwindow.filter _)
  simp only [inWindow] at hsame hwindow
  simp only [hsame]
  refine List.Perm.map _ ?_
  split
  · exact .refl _
  · exact segmentValues_perm hwindow

/-- The window assigned to an instant is the one it falls into. -/
theorem mem_window_iff {t u : Time} : (Time.windowStart t ≤ u ∧
    u < Time.windowStart t + Time.minutes 5) ↔ Time.windowStart u = Time.windowStart t := by
  have hlength : Time.minutes 5 = 300000000 := by decide
  unfold Time.windowStart
  rw [hlength]
  lia

/-- The windows of the events divide the events. -/
theorem sum_assignedWindows (events : List PaymentEvent) (threshold : ℕ) :
    ((assignedWindows events).map fun w => dimensionMeasures
      (calculateHealthMetricsForWindow events w (w + Time.minutes 5) threshold) "GLOBAL").sum =
      terminalMeasures events := by
  have hwindow : ∀ w ∈ assignedWindows events, inWindow events w (w + Time.minutes 5) =
      events.filter fun e => Time.windowStart e.timestamp = w := by
    intro w hw
    obtain ⟨e, -, rfl⟩ := List.mem_map.mp (List.mem_dedup.mp hw)
    exact List.filter_congr fun e' _ => by simp only [mem_window_iff]
  have hfigures : ∀ w ∈ assignedWindows events, dimensionMeasures
      (calculateHealthMetricsForWindow events w (w + Time.minutes 5) threshold) "GLOBAL" =
      ((events.filter fun e => Time.windowStart e.timestamp = w).map
        fun e => terminalMeasures [e]).sum := by
    intro w hw
    rw [dimensionMeasures_eq threshold (by decide), hwindow w hw, terminalMeasures_eq_sum]
    rw [hwindow w hw]
    obtain ⟨e, he, rfl⟩ := List.mem_map.mp (List.mem_dedup.mp hw)
    exact List.ne_nil_of_mem (List.mem_filter.mpr ⟨he, by simp⟩)
  have hnodup : (assignedWindows events).Nodup := List.nodup_dedup _
  rw [List.map_congr_left hfigures, Relational.sum_groups _ _ hnodup
    fun e he => List.mem_dedup.mpr (List.mem_map_of_mem he), ← terminalMeasures_eq_sum]

end Windows

/-- In each window with an event there is one global snapshot, and the segments of every
dimension add up to it; the global figures of the assigned windows add up to those of the
whole list; and the snapshots do not depend on the order of the events. -/
theorem healthMetrics_conserve (events : List PaymentEvent) (threshold : ℕ) :
    (∀ windowStart windowEnd : Time,
      (∃ e ∈ events, windowStart ≤ e.timestamp ∧ e.timestamp < windowEnd) → ∃ g,
        (calculateHealthMetricsForWindow events windowStart windowEnd threshold).filter
          (·.segmentDimension = "GLOBAL") = [g] ∧ g.segmentValue = "ALL" ∧
        ∀ dimension ∈ healthDimensions, dimensionMeasures
          (calculateHealthMetricsForWindow events windowStart windowEnd threshold) dimension =
            g.measures) ∧
    (∀ (windowStart windowEnd : Time) (events' : List PaymentEvent), events.Perm events' →
      (calculateHealthMetricsForWindow events windowStart windowEnd threshold).Perm
        (calculateHealthMetricsForWindow events' windowStart windowEnd threshold)) ∧
    ((assignedWindows events).map fun w => dimensionMeasures
      (calculateHealthMetricsForWindow events w (w + Time.minutes 5) threshold) "GLOBAL").sum =
      terminalMeasures events := by
  refine ⟨fun windowStart windowEnd hevent => ?_,
    fun _ _ _ h => calculateHealthMetricsForWindow_perm h, sum_assignedWindows events threshold⟩
  obtain ⟨e, he, hin⟩ := hevent
  have hwindow : inWindow events windowStart windowEnd ≠ [] :=
    List.ne_nil_of_mem (List.mem_filter.mpr ⟨he, by simpa using hin⟩)
  obtain ⟨g, hg, hvalue⟩ := filter_global threshold hwindow
  refine ⟨g, hg, hvalue, fun dimension hdimension => ?_⟩
  have hglobal : "GLOBAL" ∈ healthDimensions := by decide
  rw [dimensionMeasures_eq threshold hdimension hwindow,
    ← dimensionMeasures_eq threshold hglobal hwindow, dimensionMeasures, hg]
  simp

end RevenueRecovery
