import RevenueRecovery.Degradation.Episodes
import RevenueRecovery.Degradation.Service
import RevenueRecovery.RootCause.Service

/-!
# Stage 4: the windows an analysis covers

Stage 3 ends a recovered episode at the start of its last bad window, Stage 4 takes the
end for an exclusive bound. The analysis window of an active episode runs past its last
bad window, that of a recovered one stops in front of it.

## Main definitions
* `Covers` : a half-open window contains the five minutes of a signal.
-/
namespace RevenueRecovery

/-- The half-open window contains the five minutes of the signal. -/
def Covers (window : Time × Time) (s : DegradationSignal) : Prop :=
  window.1 ≤ s.windowStart ∧ s.windowStart + Time.minutes 5 ≤ window.2

section Coverage
variable {dim val : String} {rows signals : List DegradationSignal} {ep : DegradationEpisode}

/-- An episode has counted a bad window, and its status says where it ends. -/
theorem countedWindows_status (hseg : OfOneSegment dim val signals) (hs : TimeOrdered signals)
    (hep : ep ∈ reconcileTimeline signals) :
    (∃ s, s ∈ countedWindows signals ep) ∧
      (ep.status = .active ∨ ep.status = .recovered ∧
        ∃ s ∈ countedWindows signals ep, ep.endedAtWindow = some s.windowStart) := by
  obtain ⟨before, opening, rest, after, hoccurs⟩ := reconcileTimeline_occurs hseg hep
  have hcounted := hoccurs.countedWindows_eq hs.observedWord
  rw [countedWindows_observedWord] at hcounted
  obtain ⟨e, he⟩ := hoccurs.episodeOf.lastBad
  obtain ⟨last, hlast, rfl⟩ := Option.map_eq_some_iff.mp he
  have hmem : last ∈ countedWindows signals ep := hcounted ▸ List.mem_of_getLast? hlast
  refine ⟨⟨last, hmem⟩, ?_⟩
  rcases hoccurs.status with ⟨hactive, -⟩ | ⟨hrecovered, hended⟩
  · exact .inl hactive
  · exact .inr ⟨hrecovered, last, hmem, hended.trans he⟩

/-- The latest bad signal of an active episode is not before any window it counts. -/
theorem getLatestBadWindowStart_ge (hof : ep.OfSegment dim val) (hactive : ep.status = .active)
    (hcounted : ∃ s, s ∈ countedWindows (latestSignals rows dim val) ep) :
    ∃ bad, getLatestBadWindowStart rows ep = some bad ∧
      ∀ s ∈ countedWindows (latestSignals rows dim val) ep, s.windowStart ≤ bad := by
  unfold getLatestBadWindowStart
  rw [if_neg (by rw [hactive]; decide)]
  have hrows : ∀ s ∈ countedWindows (latestSignals rows dim val) ep, s ∈ rows.filter fun s =>
      s.segmentDimension = ep.segmentDimension ∧ s.segmentValue = ep.segmentValue ∧
        s.signalType = .bad ∧ s.windowStart ≥ ep.startedAtWindow := by
    intro s hs
    obtain ⟨hmem, hbad, hstart, -⟩ := mem_countedWindows.mp hs
    obtain ⟨hdim, hval⟩ := latestSignals_segment s hmem
    have hrow : s ∈ rows := List.mem_of_mem_filter (Table.latestPerGroup_mem hmem)
    refine List.mem_filter.mpr ⟨hrow, decide_eq_true ⟨?_, ?_, ?_, hstart⟩⟩
    · rw [hdim, hof.dimension_eq]
    · rw [hval, hof.value_eq]
    · exact DegradationSignal.signalType_of_isBad hbad
  obtain ⟨s, hs⟩ := hcounted
  cases hlatest : Table.latestBy (·.windowStart) (rows.filter fun s =>
      s.segmentDimension = ep.segmentDimension ∧ s.segmentValue = ep.segmentValue ∧
        s.signalType = .bad ∧ s.windowStart ≥ ep.startedAtWindow) with
  | none =>
      rw [Table.latestBy_eq_none] at hlatest
      exact absurd (hlatest ▸ hrows s hs) List.not_mem_nil
  | some bad => exact ⟨_, rfl, fun s hs => Table.latestBy_max hlatest (hrows s hs)⟩

/-- The analysis window of an episode contains every window the episode counts exactly when
the episode is not recovered. -/
theorem analysisWindow_covers_iff (rows : List DegradationSignal) (dim val : String)
    (ep : DegradationEpisode) (hep : ep ∈ reconcileTimeline (latestSignals rows dim val)) :
    ep.affectedWindowCount = (countedWindows (latestSignals rows dim val) ep).length ∧
      ((∃ window, computeAnalysisWindow ep.startedAtWindow ep.endedAtWindow
          (getLatestBadWindowStart rows ep) ep.status = .ok window ∧
        ∀ s ∈ countedWindows (latestSignals rows dim val) ep, Covers window s) ↔
      ep.status ≠ .recovered) := by
  have hseg : OfOneSegment dim val (latestSignals rows dim val) := latestSignals_segment
  have hs : TimeOrdered (latestSignals rows dim val) := Table.latestPerGroup_sorted
  have hof := (reconcileTimeline_spec hseg hs).segment ep hep
  refine ⟨affectedWindowCount_eq hseg hs hep, ?_⟩
  obtain ⟨hcounted, hactive | ⟨hrecovered, last, hlast, hended⟩⟩ :=
    countedWindows_status hseg hs hep
  · obtain ⟨bad, hbad, hle⟩ := getLatestBadWindowStart_ge hof hactive hcounted
    refine iff_of_true ⟨(ep.startedAtWindow, bad + Time.minutes 5), ?_, fun s hmem => ?_⟩ ?_
    · rw [hactive, hbad]
      rfl
    · exact ⟨(mem_countedWindows.mp hmem).2.2.1, Int.add_le_add_right (hle s hmem) _⟩
    · rw [hactive]
      decide
  · refine iff_of_false ?_ (not_not.mpr hrecovered)
    rintro ⟨window, hwindow, hcovers⟩
    rw [hrecovered, hended] at hwindow
    obtain rfl : (ep.startedAtWindow, last.windowStart) = window := by
      simpa [computeAnalysisWindow] using hwindow
    have hle : last.windowStart + Time.minutes 5 ≤ last.windowStart := (hcovers last hlast).2
    have hpos : 0 < Time.minutes 5 := by decide
    exact absurd hle (not_le.mpr (Int.lt_add_of_pos_right _ hpos))

end Coverage

open TimelineExample in
theorem analysisWindow_covers_sparse :
    ∃ window, computeAnalysisWindow 0 none
        (getLatestBadWindowStart sparse ⟨⟨"currency", "INR", 0⟩, "currency", "INR", 0, none,
          .active, 1 / 10, 3, .moderate⟩) .active = .ok window ∧
      ∀ s ∈ countedWindows (latestSignals sparse "currency" "INR") ⟨⟨"currency", "INR", 0⟩,
        "currency", "INR", 0, none, .active, 1 / 10, 3, .moderate⟩, Covers window s :=
  (analysisWindow_covers_iff sparse "currency" "INR" ⟨⟨"currency", "INR", 0⟩, "currency", "INR",
    0, none, .active, 1 / 10, 3, .moderate⟩ (by decide +kernel)).2.mpr (by decide)

open TimelineExample in
/-- The last bad window of a recovered episode is outside its analysis window. -/
theorem analysisWindow_leaves_out_paused :
    ¬ ∀ rows dim val, ∀ ep ∈ reconcileTimeline (latestSignals rows dim val),
      ∃ window, computeAnalysisWindow ep.startedAtWindow ep.endedAtWindow
          (getLatestBadWindowStart rows ep) ep.status = .ok window ∧
        ∀ s ∈ countedWindows (latestSignals rows dim val) ep, Covers window s := by
  intro hall
  obtain ⟨window, hwindow, hcovers⟩ := hall paused "currency" "INR"
    ⟨⟨"currency", "INR", 0⟩, "currency", "INR", 0, some (Time.minutes 15), .recovered, 2 / 10, 3,
      .high⟩ (by decide +kernel)
  obtain rfl : (0, Time.minutes 15) = window := by simpa [computeAnalysisWindow] using hwindow
  have hlast := (hcovers (signal .bad 3 (1 / 10)) (by decide +kernel)).2
  exact absurd hlast (by decide)

end RevenueRecovery
