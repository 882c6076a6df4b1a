import RevenueRecovery.Degradation.History
import RevenueRecovery.RootCause.Service

/-!
# Stage 4: signals that were superseded

The signal log is append-only: a late event makes Stage 3 append a higher version of a
window it has evaluated before. Stage 4 looks for the last bad window of an active episode
among all bad rows, and only then orders them by version.

## Main definitions
* `latestBadWindow` : the last window whose highest version is bad.
* `Superseded` : a window has a bad version and its highest version is not bad.
* `FollowsLatest` : the analysis of an episode goes by the highest versions.
-/
namespace RevenueRecovery

/-- A bad signal of the episode's segment, at or after its start. -/
def DegradationSignal.IsBadOf (s : DegradationSignal) (ep : DegradationEpisode) : Prop :=
  s.segmentDimension = ep.segmentDimension ∧ s.segmentValue = ep.segmentValue ∧
    s.signalType = .bad ∧ s.windowStart ≥ ep.startedAtWindow

instance (s : DegradationSignal) (ep : DegradationEpisode) : Decidable (s.IsBadOf ep) :=
  inferInstanceAs (Decidable (_ ∧ _ ∧ _ ∧ _))

/-- The windows of the episode's segment whose highest version is bad. -/
def latestBadSignals (rows : List DegradationSignal) (ep : DegradationEpisode) :
    List DegradationSignal :=
  (latestSignals rows ep.segmentDimension ep.segmentValue).filter fun s => s.IsBadOf ep

/-- The latest window at or after the episode's start whose highest version is bad. -/
def latestBadWindow (rows : List DegradationSignal) (ep : DegradationEpisode) : Option Time :=
  (Table.latestBy (·.windowStart) (latestBadSignals rows ep)).map (·.windowStart)

/-- A bad version of the window was followed by a version that is not bad. -/
def Superseded (rows : List DegradationSignal) (ep : DegradationEpisode) (window : Time) : Prop :=
  (∃ s ∈ rows, s.IsBadOf ep ∧ s.windowStart = window) ∧
    ∃ s ∈ latestSignals rows ep.segmentDimension ep.segmentValue,
      s.windowStart = window ∧ s.signalType ≠ .bad

/-- The window Stage 4 finds is the latest one whose highest version is bad, and it is not
one whose bad version was superseded. -/
structure FollowsLatest (rows : List DegradationSignal) (ep : DegradationEpisode) : Prop where
  window_eq : getLatestBadWindowStart rows ep = latestBadWindow rows ep
  not_superseded : ∀ window, getLatestBadWindowStart rows ep = some window →
    ¬ Superseded rows ep window

section Superseded
variable {rows : List DegradationSignal} {ep : DegradationEpisode}

theorem getLatestBadWindowStart_active (hactive : ep.status = .active) :
    getLatestBadWindowStart rows ep =
      (Table.latestBy (·.windowStart) (rows.filter fun s => s.IsBadOf ep)).map (·.windowStart) := by
  unfold getLatestBadWindowStart
  rw [if_neg (by rw [hactive]; decide)]
  rfl

theorem latestSignals_mem {dim val : String} {s : DegradationSignal}
    (hs : s ∈ latestSignals rows dim val) : s ∈ rows :=
  List.mem_of_mem_filter (Table.latestPerGroup_mem hs)

/-- One row of the latest signals for a window. -/
theorem latestSignals_unique {dim val : String} {s t : DegradationSignal}
    (hs : s ∈ latestSignals rows dim val) (ht : t ∈ latestSignals rows dim val)
    (hwindow : s.windowStart = t.windowStart) : s = t := by
  have hsorted : (latestSignals rows dim val).Pairwise fun a b => a.windowStart < b.windowStart :=
    Table.latestPerGroup_sorted
  have hnodup : ((latestSignals rows dim val).map (·.windowStart)).Nodup := by
    rw [List.Nodup, List.pairwise_map]
    exact hsorted.imp ne_of_lt
  exact List.inj_on_of_nodup_map hnodup hs ht hwindow

theorem mem_latestBadSignals {s : DegradationSignal} : s ∈ latestBadSignals rows ep ↔
    s ∈ latestSignals rows ep.segmentDimension ep.segmentValue ∧ s.IsBadOf ep := by
  simp [latestBadSignals]

/-- A window whose highest version is bad has a bad row. -/
theorem mem_rows_of_latestBad {s : DegradationSignal} (hs : s ∈ latestBadSignals rows ep) :
    s ∈ rows.filter fun s => s.IsBadOf ep := by
  obtain ⟨hlatest, hbad⟩ := mem_latestBadSignals.mp hs
  exact List.mem_filter.mpr ⟨latestSignals_mem hlatest, decide_eq_true hbad⟩

theorem not_superseded_of_latestBad {s : DegradationSignal}
    (hs : s ∈ latestBadSignals rows ep) : ¬ Superseded rows ep s.windowStart := by
  rintro ⟨-, t, ht, hwindow, hnot⟩
  obtain ⟨hlatest, hbad⟩ := mem_latestBadSignals.mp hs
  obtain rfl := latestSignals_unique ht hlatest hwindow
  exact hnot hbad.2.2.1

/-- The window Stage 4 finds for an active episode is the right one exactly when no bad
version is of a later window than every window whose highest version is bad. -/
theorem followsLatest_iff (rows : List DegradationSignal) (ep : DegradationEpisode)
    (hactive : ep.status = .active) :
    FollowsLatest rows ep ↔ ∀ s ∈ rows, s.IsBadOf ep →
      ∃ t ∈ latestSignals rows ep.segmentDimension ep.segmentValue,
        t.IsBadOf ep ∧ s.windowStart ≤ t.windowStart := by
  have hfound : getLatestBadWindowStart rows ep = _ := getLatestBadWindowStart_active hactive
  constructor
  · intro hfollows s hs hbad
    have hmem : s ∈ rows.filter fun s => s.IsBadOf ep :=
      List.mem_filter.mpr ⟨hs, decide_eq_true hbad⟩
    cases hlast : Table.latestBy (·.windowStart) (rows.filter fun s => s.IsBadOf ep) with
    | none =>
        rw [Table.latestBy_eq_none] at hlast
        exact absurd (hlast ▸ hmem) List.not_mem_nil
    | some last =>
        have heq : latestBadWindow rows ep = some last.windowStart := by
          rw [← hfollows.window_eq, hfound, hlast]
          rfl
        obtain ⟨t, ht, hwindow⟩ := Option.map_eq_some_iff.mp heq
        obtain ⟨hlatest, htbad⟩ := mem_latestBadSignals.mp (Table.latestBy_mem ht)
        exact ⟨t, hlatest, htbad, hwindow ▸ Table.latestBy_max hlast hmem⟩
  · intro hcond
    cases hlast : Table.latestBy (·.windowStart) (rows.filter fun s => s.IsBadOf ep) with
    | none =>
        have hnil := Table.latestBy_eq_none.mp hlast
        have hempty : latestBadSignals rows ep = [] := by
          refine List.eq_nil_iff_forall_not_mem.mpr fun s hs => ?_
          exact absurd (hnil ▸ mem_rows_of_latestBad hs) List.not_mem_nil
        rw [hlast] at hfound
        refine ⟨by rw [hfound, latestBadWindow, hempty]; rfl, fun window hwindow => ?_⟩
        rw [hfound] at hwindow
        cases hwindow
    | some last =>
        obtain ⟨hrow, hbad⟩ := List.mem_filter.mp (Table.latestBy_mem hlast)
        obtain ⟨t, hlatest, htbad, hle⟩ := hcond last hrow (of_decide_eq_true hbad)
        have ht : t ∈ latestBadSignals rows ep := mem_latestBadSignals.mpr ⟨hlatest, htbad⟩
        -- `t` is a bad row itself, so it is not after the last one.
        have hwindow : t.windowStart = last.windowStart :=
          le_antisymm (Table.latestBy_max hlast (mem_rows_of_latestBad ht)) hle
        rw [hlast] at hfound
        refine ⟨?_, fun window hsome => ?_⟩
        · cases hlatestBad : Table.latestBy (·.windowStart) (latestBadSignals rows ep) with
          | none =>
              rw [Table.latestBy_eq_none] at hlatestBad
              exact absurd (hlatestBad ▸ ht) List.not_mem_nil
          | some u =>
              have hu := mem_rows_of_latestBad (Table.latestBy_mem hlatestBad)
              have huw : u.windowStart = last.windowStart :=
                le_antisymm (Table.latestBy_max hlast hu)
                  (hwindow ▸ Table.latestBy_max hlatestBad ht)
              rw [hfound, latestBadWindow, hlatestBad, Option.map_some, Option.map_some, huw]
        · rw [hfound] at hsome
          obtain rfl : last.windowStart = window := by simpa using hsome
          exact hwindow ▸ not_superseded_of_latestBad ht

end Superseded

/-! ### A bad window that a late event made normal -/

namespace SupersededExample
open HistoryExample

/-- A fourth window without success, seen before its successful payments arrive. -/
def early : DegradationCall :=
  { snapshots := [snapshot 3 0]
    evaluationTimestamp := Time.minutes 20
    reconciliationRunId := 2
    oneSegment := by simp [snapshot] }

/-- The same window with the late payments. -/
def late : DegradationCall :=
  { snapshots := [snapshot 3 1]
    evaluationTimestamp := Time.minutes 25
    reconciliationRunId := 3
    oneSegment := by simp [snapshot] }

/-- The outage, which the late payments leave active. -/
def episode : DegradationEpisode :=
  { episodeId := ⟨"currency", "INR", 0⟩
    segmentDimension := "currency"
    segmentValue := "INR"
    startedAtWindow := 0
    endedAtWindow := none
    status := .active
    peakAbsoluteDrop := 1
    affectedWindowCount := 3
    severity := .critical }

end SupersededExample

open SupersededExample HistoryExample in
/-- Without the late payments every bad window is bad in its highest version. -/
theorem followsLatest_outage :
    FollowsLatest (processCalls [outage, early]).signals episode :=
  (followsLatest_iff _ _ rfl).mpr (by decide +kernel)

open SupersededExample HistoryExample in
/-- Stage 4 takes the window of the late payments for the last bad one. -/
theorem superseded_window_found :
    ¬ ∀ calls, ∀ ep ∈ (processCalls calls).episodes, ep.status = .active →
      FollowsLatest (processCalls calls).signals ep := by
  intro hall
  have hmem : episode ∈ (processCalls [outage, early, late]).episodes := by decide +kernel
  have hfollows := hall [outage, early, late] episode hmem rfl
  have hfound : getLatestBadWindowStart (processCalls [outage, early, late]).signals episode =
      some (Time.minutes 15) := by decide +kernel
  have hlatest : latestBadWindow (processCalls [outage, early, late]).signals episode =
      some (Time.minutes 10) := by decide +kernel
  have heq := hfollows.window_eq
  rw [hfound, hlatest] at heq
  exact absurd heq (by decide)

end RevenueRecovery
