import Mathlib.Tactic.Linarith
import RevenueRecovery.RootCause.Service

/-!
# The global baseline of a root cause analysis

Stage 2 names the value of its `GLOBAL` segment `ALL`; the episode-level baseline of
Stage 4 looks up the value `GLOBAL`. On every table Stage 2 has written the lookup
finds no row, so the expected failures of an episode are zero whatever history holds.
A missing baseline is not told from an expectation of no failures: the evaluation goes
on to classify the episode.

## Main definitions
* `savedSnapshots` : the snapshot table after a sequence of Stage 2 runs.
* `Classifies` : an evaluation gets as far as the episode-level figures.
* `BaselineAgrees` : those figures follow the stored global windows.
* `ClassifiedByBaseline` : what an evaluation classifies has a baseline.
-/
namespace RevenueRecovery

/-! ## Tables written by Stage 2 -/

/-- One recalculation of a window, with the events stored at that moment. -/
structure SnapshotRun where
  events : List PaymentEvent
  windowStart : Time
  windowEnd : Time

/-- The snapshot table after a sequence of recalculations. -/
def savedSnapshots (runs : List SnapshotRun) : List PaymentHealthSnapshot :=
  runs.foldl (fun stored r => calculateAndSaveWindow r.events stored r.windowStart r.windowEnd) []

/-- Every global row is the row of the whole traffic. -/
def GlobalNamedAll (snapshots : List PaymentHealthSnapshot) : Prop :=
  ∀ s ∈ snapshots, s.segmentDimension = "GLOBAL" → s.segmentValue = "ALL"

theorem segmentValues_global {events : List PaymentEvent} {value : String}
    (h : value ∈ segmentValues events "GLOBAL") : value = "ALL" := by
  simp only [segmentValues, List.mem_reverse, List.mem_dedup, List.mem_map] at h
  obtain ⟨e, -, rfl⟩ := h
  rfl

theorem calculateHealthMetricsForWindow_global (events : List PaymentEvent)
    (windowStart windowEnd : Time) (threshold : ℕ) :
    GlobalNamedAll (calculateHealthMetricsForWindow events windowStart windowEnd threshold) := by
  intro s hs hdim
  simp only [calculateHealthMetricsForWindow, List.mem_flatMap, List.mem_map] at hs
  obtain ⟨dimension, -, value, hvalue, rfl⟩ := hs
  obtain rfl : dimension = "GLOBAL" := hdim
  split at hvalue
  · exact List.mem_singleton.mp hvalue
  · exact segmentValues_global hvalue

theorem windowSnapshots_global (events : List PaymentEvent) (stored : List PaymentHealthSnapshot)
    (windowStart windowEnd : Time) :
    GlobalNamedAll (windowSnapshots events stored windowStart windowEnd) := by
  intro s hs hdim
  obtain ⟨raw, hraw, rfl⟩ := List.mem_map.mp hs
  exact calculateHealthMetricsForWindow_global _ _ _ _ raw hraw hdim

theorem GlobalNamedAll.calculateAndSaveWindow {stored : List PaymentHealthSnapshot}
    (h : GlobalNamedAll stored) (events : List PaymentEvent) (windowStart windowEnd : Time) :
    GlobalNamedAll (calculateAndSaveWindow events stored windowStart windowEnd) := by
  intro s hs
  rcases mem_upsertSnapshots hs with hs | hs
  · exact h s hs
  · exact windowSnapshots_global _ _ _ _ s hs

theorem savedSnapshots_global (runs : List SnapshotRun) :
    GlobalNamedAll (savedSnapshots runs) := by
  suffices ∀ stored, GlobalNamedAll stored → GlobalNamedAll (runs.foldl (fun stored r =>
      calculateAndSaveWindow r.events stored r.windowStart r.windowEnd) stored) from
    this [] (by simp [GlobalNamedAll])
  induction runs with
  | nil => exact fun _ h => h
  | cons r runs ih => exact fun stored h => ih _ (h.calculateAndSaveWindow _ _ _)

/-! ## Episode-level figures -/

/-- The lookup of the episode-level baseline finds nothing in a Stage 2 table. -/
theorem GlobalNamedAll.globalBaseline_eq {snapshots : List PaymentHealthSnapshot}
    (h : GlobalNamedAll snapshots) (histStarts : List Time) :
    globalBaseline snapshots histStarts = none := by
  have hnone : globalHistorical snapshots histStarts = [] := by
    refine List.filter_eq_nil_iff.mpr fun s hs => ?_
    simp only [getHistSnapshotForDim, List.mem_filter, decide_eq_true_eq] at hs
    obtain ⟨hmem, -, hdim, hval⟩ := hs
    have := h s hmem hdim
    rw [hval] at this
    exact absurd this (by decide)
  simp [globalBaseline, hnone, minValidHistoricalWindows]

theorem GlobalNamedAll.expectedFailures_eq {snapshots : List PaymentHealthSnapshot}
    (h : GlobalNamedAll snapshots) (terminalEvents : List PaymentEvent)
    (histStarts : List Time) :
    (episodeTotals snapshots terminalEvents histStarts).expectedFailures = 0 := by
  simp [episodeTotals, h.globalBaseline_eq]

/-- The evaluation of the episode reaches the episode-level figures: the episode is
valid, its window has enough failures, and its inputs changed. -/
structure Classifies (events : List PaymentEvent) (tables : AnalyticsTables)
    (ep : DegradationEpisode) (window : Time × Time) : Prop where
  valid : ep.status ≠ .invalidated
  window_eq : computeAnalysisWindow ep.startedAtWindow ep.endedAtWindow
    (getLatestBadWindowStart tables.signals ep) ep.status = .ok window
  failures : minFailuresForRcaEvaluation ≤ failureCount (terminalEventsInWindow events window)
  changed : unchangedInputs tables (computeInputFingerprint ep window
    (failureCount (terminalEventsInWindow events window))
    (terminalEventsInWindow events window).length
    ((evaluateStructuralCandidates tables.snapshots (terminalEventsInWindow events window)
      (getAllHistoricalStarts window.1 window.2)).flatMap (·.histTuples))) = false

/-- The figures an evaluation classifies its episode with. -/
def evaluationTotals (events : List PaymentEvent) (tables : AnalyticsTables)
    (window : Time × Time) : EpisodeTotals :=
  episodeTotals tables.snapshots (terminalEventsInWindow events window)
    (getAllHistoricalStarts window.1 window.2)

/-- Such an evaluation classifies the episode with these figures. -/
theorem Classifies.evaluateEpisode_eq {events : List PaymentEvent} {tables : AnalyticsTables}
    {ep : DegradationEpisode} {window : Time × Time} (h : Classifies events tables ep window)
    (now : Time) :
    ∃ fingerprint results, evaluateEpisode events tables ep now =
      .ok (classifyEpisode tables ep window fingerprint (evaluationTotals events tables window)
        results now) := by
  let terminalEvents := terminalEventsInWindow events window
  let results := evaluateStructuralCandidates tables.snapshots terminalEvents
    (getAllHistoricalStarts window.1 window.2)
  refine ⟨computeInputFingerprint ep window (failureCount terminalEvents) terminalEvents.length
    (results.flatMap (·.histTuples)), results, ?_⟩
  simp only [evaluateEpisode, if_neg h.valid, h.window_eq, if_neg (not_lt.mpr h.failures),
    h.changed, bind, Except.bind, pure, Except.pure, Bool.false_eq_true, if_false]
  rfl

theorem Classifies.terminalEvents_pos {events : List PaymentEvent} {tables : AnalyticsTables}
    {ep : DegradationEpisode} {window : Time × Time} (h : Classifies events tables ep window) :
    0 < (terminalEventsInWindow events window).length := by
  have hcount : failureCount (terminalEventsInWindow events window) ≤
      (terminalEventsInWindow events window).length := List.countP_le_length
  have hmin := h.failures
  unfold minFailuresForRcaEvaluation at hmin
  omega

/-! ## Agreement with the stored global windows -/

/-- The stored global rows of sufficient volume at the historical starts. -/
def globalWindows (snapshots : List PaymentHealthSnapshot) (histStarts : List Time) :
    List PaymentHealthSnapshot :=
  snapshots.filter fun s => s.windowStart ∈ histStarts ∧ s.segmentDimension = "GLOBAL" ∧
    s.validForBaseline = true

/-- The historical windows that hold such a row. -/
def coveredStarts (snapshots : List PaymentHealthSnapshot) (histStarts : List Time) :
    List Time :=
  histStarts.filter fun start =>
    (globalWindows snapshots histStarts).any fun s => s.windowStart = start

/-- The failures counted in the stored global windows. -/
def globalFailures (snapshots : List PaymentHealthSnapshot) (histStarts : List Time) : ℕ :=
  ((globalWindows snapshots histStarts).map (·.failedTransactionCount)).sum

/-- Whenever two historical windows hold a global row of sufficient volume, an evaluation
of the episode expects the terminal transactions of its window times the volume-weighted
failure rate of the global rows; in particular it expects failures when they had some. -/
def BaselineAgrees (events : List PaymentEvent) (tables : AnalyticsTables)
    (ep : DegradationEpisode) : Prop :=
  ∀ window, Classifies events tables ep window →
    let histStarts := getAllHistoricalStarts window.1 window.2
    let transactions := (terminalEventsInWindow events window).length
    let expected := (evaluationTotals events tables window).expectedFailures
    2 ≤ (coveredStarts tables.snapshots histStarts).length →
      expected = transactions *
          (computeVolumeWeightedFailureRate (globalWindows tables.snapshots histStarts)).getD 0 ∧
        (0 < globalFailures tables.snapshots histStarts → 0 < transactions → 0 < expected)

/-- On a table written by Stage 2 the figures agree exactly when, for every window the
episode is evaluated on, fewer than two historical windows hold a global row of
sufficient volume, or the rows count no failure. -/
theorem baselineAgrees_iff (runs : List SnapshotRun) (events : List PaymentEvent)
    (tables : AnalyticsTables) (ep : DegradationEpisode) :
    BaselineAgrees events { tables with snapshots := savedSnapshots runs } ep ↔
      ∀ window, Classifies events { tables with snapshots := savedSnapshots runs } ep window →
        (coveredStarts (savedSnapshots runs)
            (getAllHistoricalStarts window.1 window.2)).length < 2 ∨
          globalFailures (savedSnapshots runs)
            (getAllHistoricalStarts window.1 window.2) = 0 := by
  have hzero : ∀ window, (evaluationTotals events
      { tables with snapshots := savedSnapshots runs } window).expectedFailures = 0 :=
    fun window => (savedSnapshots_global runs).expectedFailures_eq _ _
  constructor
  · intro hagrees window hclass
    by_contra hcond
    rw [not_or, not_lt] at hcond
    obtain ⟨hcovered, hfail⟩ := hcond
    have hpos := (hagrees window hclass hcovered).2 (Nat.pos_of_ne_zero hfail)
      hclass.terminalEvents_pos
    exact hpos.ne' (hzero window)
  · intro hcond window hclass histStarts transactions expected hcovered
    have hfail : globalFailures (savedSnapshots runs) histStarts = 0 :=
      (hcond window hclass).resolve_left (not_lt.mpr hcovered)
    have hrate : (computeVolumeWeightedFailureRate
        (globalWindows (savedSnapshots runs) histStarts)).getD 0 = 0 := by
      unfold globalFailures at hfail
      simp only [computeVolumeWeightedFailureRate, hfail, rate]
      split <;> simp
    refine ⟨?_, fun hpos => absurd hfail hpos.ne'⟩
    rw [hrate, mul_zero]
    exact hzero window

/-! ## A store on which the figures disagree -/

namespace BaselineExample

/-- A terminal event of one amount and currency. -/
def event (id : ℕ) (eventType : String) (timestamp : Time) : PaymentEvent :=
  { eventId := id, sourceSystem := razorpaySourceSystem, sourceEventId := "evt",
    paymentId := "pay", timestamp := timestamp, eventType := eventType, currency := "INR",
    amountMinorUnits := 10000, paymentStatus := "failed", ingestedAt := timestamp }

def start : Time := Time.weeks 10

/-- Two weeks of the same window with twenty-five captured and twenty-five failed payments. -/
def runs : List SnapshotRun :=
  [1, 2].map fun week =>
    let windowStart := start - Time.weeks week
    ⟨List.replicate 25 (event 0 capturedEventType windowStart) ++
        List.replicate 25 (event 1 failedEventType windowStart),
      windowStart, windowStart + Time.minutes 5⟩

/-- Ten failed payments in the window of the episode. -/
def events : List PaymentEvent := List.replicate 10 (event 2 failedEventType start)

def episode : DegradationEpisode :=
  { episodeId := ⟨"GLOBAL", "ALL", start⟩
    segmentDimension := "GLOBAL"
    segmentValue := "ALL"
    startedAtWindow := start
    endedAtWindow := some (start + Time.minutes 5)
    status := .recovered
    peakAbsoluteDrop := 1 / 2
    affectedWindowCount := 3
    severity := .critical }

def window : Time × Time := (start, start + Time.minutes 5)

theorem classifies : Classifies events { snapshots := savedSnapshots runs } episode window where
  valid := by decide
  window_eq := by decide +kernel
  failures := by decide +kernel
  changed := by decide +kernel

end BaselineExample

open BaselineExample in
/-- Half of all payments failed in both earlier weeks, and the evaluation expects none of
the ten failures of the episode's window. -/
theorem baselineAgrees_fails :
    ¬ BaselineAgrees events { ({} : AnalyticsTables) with snapshots := savedSnapshots runs }
      episode := by
  intro h
  have hpos := (h window classifies (by decide +kernel)).2 (by decide +kernel) (by decide +kernel)
  exact hpos.ne' ((savedSnapshots_global runs).expectedFailures_eq _ _)

/-! ## Classifications without a baseline -/

/-- The evaluations a call appends to those stored before it. -/
def appendedEvaluations (tables tables' : AnalyticsTables) : List RootCauseAnalysisEvaluation :=
  tables'.evaluations.drop tables.evaluations.length

/-- The required number of historical global windows qualify for the baseline of a window. -/
def HasBaseline (snapshots : List PaymentHealthSnapshot) (window : Time × Time) : Prop :=
  minValidHistoricalWindows ≤
    (globalHistorical snapshots (getAllHistoricalStarts window.1 window.2)).length

/-- An evaluation at `now` calls the episode systemic or segment-specific only with a valid
global baseline, and unknown otherwise. -/
def ClassifiedByBaseline (events : List PaymentEvent) (tables : AnalyticsTables)
    (ep : DegradationEpisode) (now : Time) : Prop :=
  ∀ tables', evaluateEpisode events tables ep now = .ok tables' →
    ∀ row ∈ appendedEvaluations tables tables',
      (row.classification = .systemic ∨ row.classification = .segmentSpecific →
        HasBaseline tables.snapshots (row.analysisWindowStart, row.analysisWindowEnd)) ∧
      (¬ HasBaseline tables.snapshots (row.analysisWindowStart, row.analysisWindowEnd) →
        row.classification = .unknown)

section Classified
variable {events : List PaymentEvent} {tables tables' : AnalyticsTables}
  {ep : DegradationEpisode} {now : Time}

@[simp] theorem appendedEvaluations_self (tables : AnalyticsTables) :
    appendedEvaluations tables tables = [] := by
  simp [appendedEvaluations]

/-- An append is one row of the window and the classification given. -/
theorem mem_appendedEvaluations_append {episodeId : EpisodeId} {window : Time × Time}
    {classification : RCAClassification} {fingerprint : RCAFingerprint}
    {ranked : List QualifiedCandidate} {row : RootCauseAnalysisEvaluation}
    (hrow : row ∈ appendedEvaluations tables
      (appendEvaluation tables episodeId window classification fingerprint now ranked)) :
    row.classification = classification ∧
      (row.analysisWindowStart, row.analysisWindowEnd) = window := by
  simp only [appendedEvaluations, appendEvaluation, List.drop_left, List.mem_singleton] at hrow
  subst hrow
  exact ⟨rfl, rfl⟩

theorem appendedEvaluations_append_ne_nil (tables : AnalyticsTables) (episodeId : EpisodeId)
    (window : Time × Time) (classification : RCAClassification) (fingerprint : RCAFingerprint)
    (now : Time) (ranked : List QualifiedCandidate) :
    appendedEvaluations tables
      (appendEvaluation tables episodeId window classification fingerprint now ranked) ≠ [] := by
  simp [appendedEvaluations, appendEvaluation]

/-- What is persisted as unknown is unknown. -/
theorem unknown_of_persistUnknown {fingerprint : RCAFingerprint} {window : Time × Time}
    {row : RootCauseAnalysisEvaluation}
    (hrow : row ∈ appendedEvaluations tables (persistUnknown tables fingerprint window now)) :
    row.classification = .unknown := by
  unfold persistUnknown at hrow
  split at hrow
  · simp at hrow
  · exact (mem_appendedEvaluations_append hrow).1

/-- An evaluation persists an unknown row, or nothing, or classifies the episode. -/
theorem evaluateEpisode_cases (h : evaluateEpisode events tables ep now = .ok tables') :
    (∃ fingerprint window, tables' = persistUnknown tables fingerprint window now) ∨
      tables' = tables ∨ ∃ window, Classifies events tables ep window ∧
        ∃ fingerprint results, tables' = classifyEpisode tables ep window fingerprint
          (evaluationTotals events tables window) results now := by
  unfold evaluateEpisode at h
  split at h
  · cases h
    exact .inl ⟨_, _, rfl⟩
  · rename_i hvalid
    cases hwindow : computeAnalysisWindow ep.startedAtWindow ep.endedAtWindow
        (getLatestBadWindowStart tables.signals ep) ep.status with
    | error e =>
        rw [hwindow] at h
        cases h
    | ok window =>
        simp only [hwindow, bind, Except.bind, pure, Except.pure] at h
        split at h
        · cases h
          exact .inl ⟨_, _, rfl⟩
        · rename_i hfailures
          split at h
          · cases h
            exact .inr (.inl rfl)
          · rename_i hchanged
            cases h
            have hclass : Classifies events tables ep window :=
              ⟨hvalid, hwindow, not_lt.mp hfailures, Bool.not_eq_true _ ▸ hchanged⟩
            exact .inr (.inr ⟨window, hclass, _, _, rfl⟩)

/-- A classified episode is not unknown when its failures exceed the expected ones. -/
theorem classifyEpisode_classification (tables : AnalyticsTables) (ep : DegradationEpisode)
    (now : Time) (window : Time × Time) (fingerprint : RCAFingerprint) {totals : EpisodeTotals}
    (results : List StructuralResult)
    (hexcess : 0 < totals.episodeTotalExcessFailures) :
    ∃ row ∈ appendedEvaluations tables
        (classifyEpisode tables ep window fingerprint totals results now),
      (row.classification = .systemic ∨ row.classification = .segmentSpecific) ∧
        (row.analysisWindowStart, row.analysisWindowEnd) = window := by
  simp only [classifyEpisode, if_neg (not_le.mpr hexcess)]
  obtain ⟨row, hrow⟩ := List.exists_mem_of_ne_nil _ (appendedEvaluations_append_ne_nil
    tables ep.episodeId window
    (if results.filterMap (qualifyCandidate totals.episodeTotalExcessFailures) = [] then .systemic
      else .segmentSpecific) fingerprint now
    (rankCandidates (results.filterMap (qualifyCandidate totals.episodeTotalExcessFailures))))
  obtain ⟨hclass, hwindow⟩ := mem_appendedEvaluations_append hrow
  refine ⟨row, hrow, ?_, hwindow⟩
  rw [hclass]
  split
  · exact .inl rfl
  · exact .inr rfl

theorem appendedEvaluations_classify {window : Time × Time} {fingerprint : RCAFingerprint}
    {totals : EpisodeTotals} {results : List StructuralResult}
    {row : RootCauseAnalysisEvaluation}
    (hrow : row ∈ appendedEvaluations tables
      (classifyEpisode tables ep window fingerprint totals results now)) :
    (row.analysisWindowStart, row.analysisWindowEnd) = window := by
  unfold classifyEpisode at hrow
  split at hrow
  · exact (mem_appendedEvaluations_append hrow).2
  · exact (mem_appendedEvaluations_append hrow).2

/-- Without a baseline every failure of the window counts as excess. -/
theorem Classifies.excess_pos {window : Time × Time} (h : Classifies events tables ep window)
    (hnone : ¬ HasBaseline tables.snapshots window) :
    0 < (evaluationTotals events tables window).episodeTotalExcessFailures := by
  have hbaseline : globalBaseline tables.snapshots
      (getAllHistoricalStarts window.1 window.2) = none := by
    simp only [globalBaseline, ge_iff_le, ite_eq_right_iff]
    exact fun hsome => absurd hsome hnone
  have hfailures : 0 < failureCount (terminalEventsInWindow events window) :=
    lt_of_lt_of_le (by decide) h.failures
  simp only [evaluationTotals, episodeTotals, hbaseline, Option.elim_none, sub_zero, lt_max_iff,
    lt_self_iff_false, false_or]
  exact_mod_cast hfailures

/-- Classifications have a baseline exactly when every evaluation that gets as far as the
episode-level figures finds one. -/
theorem classifiedByBaseline_iff (events : List PaymentEvent) (tables : AnalyticsTables)
    (ep : DegradationEpisode) (now : Time) :
    ClassifiedByBaseline events tables ep now ↔
      ∀ window, Classifies events tables ep window → HasBaseline tables.snapshots window := by
  constructor
  · intro hall window hclass
    by_contra hnone
    obtain ⟨fingerprint, results, heval⟩ := hclass.evaluateEpisode_eq now
    obtain ⟨row, hrow, hclassified, hwindow⟩ := classifyEpisode_classification tables ep
      now window fingerprint results (hclass.excess_pos hnone)
    have hbaseline := (hall _ heval row hrow).1 hclassified
    rw [hwindow] at hbaseline
    exact hnone hbaseline
  · intro hcond tables' heval row hrow
    rcases evaluateEpisode_cases heval with ⟨fingerprint, window, rfl⟩ | rfl |
      ⟨window, hclass, fingerprint, results, rfl⟩
    · have hunknown := unknown_of_persistUnknown hrow
      rw [hunknown]
      exact ⟨by simp, fun _ => rfl⟩
    · simp at hrow
    · rw [appendedEvaluations_classify hrow]
      have hbaseline := hcond window hclass
      exact ⟨fun _ => hbaseline, fun hnone => absurd hbaseline hnone⟩

end Classified

open BaselineExample in
/-- Ten failures and no history at all make a systemic degradation. -/
theorem classified_without_baseline : ¬ ClassifiedByBaseline events {} episode start := by
  intro hall
  have hsystemic : ((evaluateEpisode events {} episode start).toOption.map fun tables =>
      (appendedEvaluations {} tables).map (·.classification)) = some [.systemic] := by
    decide +kernel
  obtain ⟨tables', heval, hclasses⟩ := Option.map_eq_some_iff.mp hsystemic
  obtain ⟨row, hrow, hclass⟩ : ∃ row ∈ appendedEvaluations {} tables',
      row.classification = .systemic := by
    rw [← List.mem_map, hclasses]
    exact List.mem_singleton_self _
  have hok : evaluateEpisode events {} episode start = .ok tables' := by
    cases h : evaluateEpisode events {} episode start with
    | error e => rw [h] at heval; cases heval
    | ok tables => rw [h] at heval; cases heval; rfl
  have hbaseline := (hall tables' hok row hrow).1 (.inl hclass)
  simp [HasBaseline, globalHistorical, getHistSnapshotForDim, minValidHistoricalWindows]
    at hbaseline

end RevenueRecovery
