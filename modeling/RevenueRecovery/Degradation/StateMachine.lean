import Mathlib.Algebra.Order.Field.Rat
import Mathlib.Data.List.Nodup
import Mathlib.Tactic.SplitIfs
import RevenueRecovery.Database

/-!
# Stage 3: signals and the episode state machine

A snapshot with a baseline becomes a signal; the signals of a segment, in window
order, drive a state machine that opens an episode after three bad windows and
closes it after two normal ones.

## Main definitions
* `evaluateSnapshot` : the signal of a snapshot.
* `evaluateSeverity`, `escalateSeverity` : how severe a bad window is.
* `reconcileTimeline` : the episodes of a signal timeline.
-/
namespace RevenueRecovery

def minAbsoluteRateDrop : ℚ := 5 / 100
def minRelativeRateDrop : ℚ := 10 / 100
def minBaselineRateForRelativeTest : ℚ := 5 / 100
def requiredConsecutiveWindows : ℕ := 3
def recoveryConsecutiveWindows : ℕ := 2
def severityHighAbsoluteDrop : ℚ := 15 / 100
def severityHighRelativeDrop : ℚ := 25 / 100
def severityCriticalAbsoluteDrop : ℚ := 30 / 100
def severityCriticalRelativeDrop : ℚ := 50 / 100

/-- The signal of a snapshot. Subtracting a missing success rate raises. -/
def evaluateSnapshot (s : PaymentHealthSnapshot) (evaluationVersion : ℕ)
    (evaluationTimestamp : Time) : Except ServiceError DegradationSignal :=
  let signal (kind : SignalType) (absoluteDrop relativeDrop : Option ℚ) : DegradationSignal :=
    { segmentDimension := s.segmentDimension
      segmentValue := s.segmentValue
      windowStart := s.windowStart
      evaluationVersion := evaluationVersion
      signalType := kind
      baselineSuccessRate := s.baselineSuccessRate
      absoluteDrop := absoluteDrop
      relativeDrop := relativeDrop
      evaluationTimestamp := evaluationTimestamp }
  match s.baselineSuccessRate with
  | none => .ok (signal .noBaseline none none)
  | some baseline =>
      if s.insufficientVolume then .ok (signal .lowVolume none none)
      else match s.successRate with
        | none => .error .typeError
        | some current =>
            let absoluteDrop := baseline - current
            let relativeDrop := if baseline > 0 then (baseline - current) / baseline else 0
            let bad :=
              if baseline < minBaselineRateForRelativeTest then
                absoluteDrop ≥ minAbsoluteRateDrop
              else absoluteDrop ≥ minAbsoluteRateDrop ∧ relativeDrop ≥ minRelativeRateDrop
            .ok (signal (if bad then .bad else .normal) (some absoluteDrop) (some relativeDrop))

def evaluateSeverity (signal : DegradationSignal) (baselineSuccessRate : ℚ) : Severity :=
  match signal.absoluteDrop, signal.relativeDrop with
  | some absDrop, some relDrop =>
      if absDrop ≥ severityCriticalAbsoluteDrop ∨
          (baselineSuccessRate ≥ minBaselineRateForRelativeTest ∧
            relDrop ≥ severityCriticalRelativeDrop) then .critical
      else if absDrop ≥ severityHighAbsoluteDrop ∨
          (baselineSuccessRate ≥ minBaselineRateForRelativeTest ∧
            relDrop ≥ severityHighRelativeDrop) then .high
      else .moderate
  | _, _ => .moderate

/-- The order of severities used by `escalate_severity`. -/
def Severity.rank : Severity → ℕ
  | moderate => 1
  | high => 2
  | critical => 3

def escalateSeverity (current proposed : Severity) : Severity :=
  if proposed.rank > current.rank then proposed else current

/-- The severity of one bad signal, with a missing baseline read as `0`. -/
def signalSeverity (signal : DegradationSignal) : Severity :=
  evaluateSeverity signal (signal.baselineSuccessRate.getD 0)

/-! ## The state machine -/

/-- The current state, carrying what it has collected so far. -/
inductive StateMachineState
  | healthy
  | badPending (persistenceCount : ℕ) (firstBadWindow : Time)
      (pendingSignals : List DegradationSignal)
  | degraded (currentEpisode : DegradationEpisode)
  | recoveryPending (currentEpisode : DegradationEpisode) (recoveryCount : ℕ)
deriving DecidableEq, Repr

/-- The loop variables of `reconcile_timeline`. -/
structure Timeline where
  currentState : StateMachineState
  lastBadWindow : Option Time
  episodes : List DegradationEpisode
deriving DecidableEq, Repr

/-- The largest absolute drop of the signals; `0` when none has one. -/
def peakAbsoluteDrop (signals : List DegradationSignal) : ℚ :=
  match signals.filterMap (·.absoluteDrop) with
  | [] => 0
  | d :: ds => ds.foldl max d

/-- The episode opened by the pending bad signals. -/
def openEpisode (segmentDimension segmentValue : String) (firstBadWindow : Time)
    (persistenceCount : ℕ) (pendingSignals : List DegradationSignal) : DegradationEpisode :=
  { episodeId := ⟨segmentDimension, segmentValue, firstBadWindow⟩
    segmentDimension := segmentDimension
    segmentValue := segmentValue
    startedAtWindow := firstBadWindow
    endedAtWindow := none
    status := .active
    peakAbsoluteDrop := peakAbsoluteDrop pendingSignals
    affectedWindowCount := persistenceCount
    severity := pendingSignals.foldl (fun sev s => escalateSeverity sev (signalSeverity s))
      .moderate }

/-- A further bad window of an open episode. -/
def extendEpisode (episode : DegradationEpisode) (signal : DegradationSignal) :
    DegradationEpisode :=
  { episode with
    affectedWindowCount := episode.affectedWindowCount + 1
    peakAbsoluteDrop := match signal.absoluteDrop with
      | some d => if d > episode.peakAbsoluteDrop then d else episode.peakAbsoluteDrop
      | none => episode.peakAbsoluteDrop
    severity := escalateSeverity episode.severity (signalSeverity signal) }

/-- The state after a signal, and the episode it closes. -/
def nextState (segmentDimension segmentValue : String) (lastBadWindow : Option Time)
    (state : StateMachineState) (signal : DegradationSignal) :
    StateMachineState × List DegradationEpisode :=
  match state, signal.signalType with
  | .healthy, .bad => (.badPending 1 signal.windowStart [signal], [])
  | .healthy, _ => (.healthy, [])
  | .badPending count first pending, .bad =>
      if count + 1 ≥ requiredConsecutiveWindows then
        (.degraded (openEpisode segmentDimension segmentValue first (count + 1)
          (pending ++ [signal])), [])
      else (.badPending (count + 1) first (pending ++ [signal]), [])
  | .badPending .., .normal => (.healthy, [])
  | .badPending count first pending, _ => (.badPending count first pending, [])
  | .degraded episode, .bad => (.degraded (extendEpisode episode signal), [])
  | .degraded episode, .normal => (.recoveryPending episode 1, [])
  | .degraded episode, _ => (.degraded episode, [])
  | .recoveryPending episode count, .normal =>
      if count + 1 ≥ recoveryConsecutiveWindows then
        (.healthy, [{ episode with status := .recovered, endedAtWindow := lastBadWindow }])
      else (.recoveryPending episode (count + 1), [])
  | .recoveryPending episode _, .bad => (.degraded (extendEpisode episode signal), [])
  | .recoveryPending episode count, _ => (.recoveryPending episode count, [])

/-- One iteration of the loop over the signals. -/
def timelineStep (segmentDimension segmentValue : String) (t : Timeline)
    (signal : DegradationSignal) : Timeline :=
  let (state, closed) :=
    nextState segmentDimension segmentValue t.lastBadWindow t.currentState signal
  { currentState := state
    lastBadWindow := if signal.signalType = .bad then some signal.windowStart
      else t.lastBadWindow
    episodes := t.episodes ++ closed }

/-- The episode still open at the end of the timeline. -/
def StateMachineState.currentEpisode : StateMachineState → List DegradationEpisode
  | .degraded episode | .recoveryPending episode _ => [episode]
  | .healthy | .badPending .. => []

/-- The episodes of a timeline of one segment, in order. -/
def reconcileTimeline (signals : List DegradationSignal) : List DegradationEpisode :=
  match signals with
  | [] => []
  | first :: _ =>
      let final := signals.foldl (timelineStep first.segmentDimension first.segmentValue)
        ⟨.healthy, none, []⟩
      final.episodes ++ final.currentState.currentEpisode

/-! ## Episodes of a timeline

An episode starts at a window already read. As the windows of a timeline strictly
increase, the starts of its episodes do too. -/

/-- The episode belongs to the segment and its id is that of its start. -/
structure DegradationEpisode.OfSegment (dim val : String) (ep : DegradationEpisode) : Prop where
  id_eq : ep.episodeId = ⟨dim, val, ep.startedAtWindow⟩
  dimension_eq : ep.segmentDimension = dim
  value_eq : ep.segmentValue = val

/-- The start of the pending or open episode of a state, if there is one. -/
def StateMachineState.start : StateMachineState → List Time
  | .healthy => []
  | .badPending _ first _ => [first]
  | .degraded episode | .recoveryPending episode _ => [episode.startedAtWindow]

section Timeline
variable {dim val : String}

private theorem ofSegment_open (first : Time) (count : ℕ) (pending : List DegradationSignal) :
    (openEpisode dim val first count pending).OfSegment dim val := ⟨rfl, rfl, rfl⟩

private theorem ofSegment_extend {ep : DegradationEpisode} (h : ep.OfSegment dim val)
    (signal : DegradationSignal) : (extendEpisode ep signal).OfSegment dim val :=
  ⟨h.id_eq, h.dimension_eq, h.value_eq⟩

/-- Reading a signal keeps the start of the state, drops it, starts at the signal's
window, or closes the open episode. -/
private theorem nextState_start (dim val : String) (last : Option Time)
    (state : StateMachineState) (signal : DegradationSignal) :
    let r := nextState dim val last state signal
    (r.2 = [] ∧ (r.1.start = state.start ∨ r.1.start = [])) ∨
      (r.2 = [] ∧ state.start = [] ∧ r.1.start = [signal.windowStart]) ∨
      (∃ ep count, state = .recoveryPending ep count ∧ r.1 = .healthy ∧
        r.2 = [{ ep with status := .recovered, endedAtWindow := last }]) := by
  rcases state with _ | ⟨count, first, pending⟩ | episode | ⟨episode, count⟩ <;>
    rcases hk : signal.signalType <;>
    simp only [nextState, hk, StateMachineState.start, extendEpisode] <;>
    (try split_ifs) <;> simp [openEpisode]

/-- The open episode of the next state is of the segment and active. -/
private theorem nextState_currentEpisode {state : StateMachineState} (last : Option Time)
    (signal : DegradationSignal)
    (h : ∀ ep ∈ state.currentEpisode, ep.OfSegment dim val ∧ ep.status = .active) :
    ∀ ep ∈ (nextState dim val last state signal).1.currentEpisode,
      ep.OfSegment dim val ∧ ep.status = .active := by
  have hopen : ∀ first count pending, (openEpisode dim val first count pending).status = .active :=
    fun _ _ _ => rfl
  have hextend : ∀ ep, (extendEpisode ep signal).status = ep.status := fun _ => rfl
  rcases state with _ | ⟨count, first, pending⟩ | episode | ⟨episode, count⟩ <;>
    rcases hk : signal.signalType <;>
    simp only [nextState, hk] <;> (try split_ifs) <;>
    simp_all [StateMachineState.currentEpisode, ofSegment_open, ofSegment_extend]

/-- What holds of the loop variables after the windows before `bound` were read. -/
structure Timeline.Valid (dim val : String) (bound : Time) (t : Timeline) : Prop where
  closed : ∀ ep ∈ t.episodes, ep.OfSegment dim val ∧ ep.status = .recovered
  opened : ∀ ep ∈ t.currentState.currentEpisode, ep.OfSegment dim val ∧ ep.status = .active
  starts : (t.episodes.map (·.startedAtWindow) ++ t.currentState.start).Pairwise (· < ·)
  below : ∀ s ∈ t.episodes.map (·.startedAtWindow) ++ t.currentState.start, s < bound

theorem Timeline.Valid.step {bound : Time} {t : Timeline} {signal : DegradationSignal}
    (h : t.Valid dim val bound) (hw : bound ≤ signal.windowStart) :
    (timelineStep dim val t signal).Valid dim val (signal.windowStart + 1) := by
  have hopened := nextState_currentEpisode t.lastBadWindow signal h.opened
  have hbelow : ∀ s ∈ t.episodes.map (·.startedAtWindow) ++ t.currentState.start,
      s < signal.windowStart + 1 := fun s hs => by have := h.below s hs; lia
  rcases nextState_start dim val t.lastBadWindow t.currentState signal with
    ⟨hnone, hstart⟩ | ⟨hnone, hold, hnew⟩ | ⟨ep, count, hstate, hhealthy, hclosed⟩
  · refine ⟨?_, hopened, ?_, ?_⟩ <;>
      simp only [timelineStep, hnone, List.append_nil]
    · exact h.closed
    · rcases hstart with heq | heq <;> rw [heq]
      · exact h.starts
      · exact h.starts.sublist (List.Sublist.append_left (List.nil_sublist _) _)
    · rcases hstart with heq | heq <;> rw [heq]
      · exact hbelow
      · intro s hs
        exact hbelow s (List.mem_append_left _ (by simpa using hs))
  · refine ⟨?_, hopened, ?_, ?_⟩ <;>
      simp only [timelineStep, hnone, hnew, List.append_nil]
    · exact h.closed
    · refine List.pairwise_append.mpr ⟨(List.pairwise_append.mp h.starts).1, by simp, ?_⟩
      intro s hs s' hs'
      obtain rfl : s' = signal.windowStart := by simpa using hs'
      exact (h.below s (List.mem_append_left _ hs)).trans_le hw
    · intro s hs
      rcases List.mem_append.mp hs with hs | hs
      · exact hbelow s (List.mem_append_left _ hs)
      · obtain rfl : s = signal.windowStart := by simpa using hs
        exact Int.lt_succ _
  · have hep := h.opened ep (by simp [hstate, StateMachineState.currentEpisode])
    refine ⟨?_, hopened, ?_, ?_⟩ <;>
      simp only [timelineStep, hclosed, hhealthy, StateMachineState.start, List.append_nil,
        List.map_append, List.map_cons, List.map_nil]
    · intro e he
      rcases List.mem_append.mp he with he | he
      · exact h.closed e he
      · obtain rfl := List.mem_singleton.mp he
        exact ⟨⟨hep.1.id_eq, hep.1.dimension_eq, hep.1.value_eq⟩, rfl⟩
    · simpa [hstate, StateMachineState.start] using h.starts
    · simpa [hstate, StateMachineState.start] using hbelow

/-- The loop keeps its variables valid on strictly increasing windows. -/
theorem Timeline.Valid.foldl {bound : Time} {t : Timeline} {signals : List DegradationSignal}
    (h : t.Valid dim val bound) (hw : ∀ s ∈ signals, bound ≤ s.windowStart)
    (hs : signals.Pairwise fun a b => a.windowStart < b.windowStart) :
    ∃ bound', (signals.foldl (timelineStep dim val) t).Valid dim val bound' := by
  induction signals generalizing t bound with
  | nil => exact ⟨bound, h⟩
  | cons signal signals ih =>
      obtain ⟨hhead, htail⟩ := List.pairwise_cons.mp hs
      exact ih (h.step (hw signal List.mem_cons_self))
        (fun s hmem => Int.add_one_le_of_lt (hhead s hmem)) htail

end Timeline

/-- What `reconcileTimeline` returns on strictly increasing windows of one segment. -/
structure Reconciled (dim val : String) (episodes : List DegradationEpisode) : Prop where
  segment : ∀ ep ∈ episodes, ep.OfSegment dim val
  valid : ∀ ep ∈ episodes, ep.status ≠ .invalidated
  starts : (episodes.map (·.startedAtWindow)).Pairwise (· < ·)

/-- On strictly increasing windows of one segment the episodes are those the loop closed
and the one it left open. -/
theorem reconcileTimeline_valid {dim val : String} {signals : List DegradationSignal}
    (hseg : ∀ s ∈ signals, s.segmentDimension = dim ∧ s.segmentValue = val)
    (hs : signals.Pairwise fun a b => a.windowStart < b.windowStart) :
    ∃ bound t, Timeline.Valid dim val bound t ∧
      reconcileTimeline signals = t.episodes ++ t.currentState.currentEpisode := by
  have hinit : ∀ bound, Timeline.Valid dim val bound ⟨.healthy, none, []⟩ := fun bound =>
    ⟨by simp, by simp [StateMachineState.currentEpisode], by simp [StateMachineState.start],
      by simp [StateMachineState.start]⟩
  cases signals with
  | nil => exact ⟨0, _, hinit 0, rfl⟩
  | cons first rest =>
      have hge : ∀ s ∈ first :: rest, first.windowStart ≤ s.windowStart := by
        intro s hmem
        rcases List.mem_cons.mp hmem with rfl | hmem
        · exact le_rfl
        · exact ((List.pairwise_cons.mp hs).1 s hmem).le
      obtain ⟨bound, hvalid⟩ := (hinit first.windowStart).foldl hge hs
      obtain ⟨hdim, hval⟩ := hseg first List.mem_cons_self
      exact ⟨bound, _, hvalid, by simp only [reconcileTimeline, hdim, hval]⟩

theorem reconcileTimeline_spec {dim val : String} {signals : List DegradationSignal}
    (hseg : ∀ s ∈ signals, s.segmentDimension = dim ∧ s.segmentValue = val)
    (hs : signals.Pairwise fun a b => a.windowStart < b.windowStart) :
    Reconciled dim val (reconcileTimeline signals) := by
  obtain ⟨bound, t, hvalid, heq⟩ := reconcileTimeline_valid hseg hs
  rw [heq]
  have hstart : t.currentState.currentEpisode.map (·.startedAtWindow) = [] ∨
      t.currentState.currentEpisode.map (·.startedAtWindow) = t.currentState.start := by
    cases t.currentState <;> simp [StateMachineState.currentEpisode, StateMachineState.start]
  refine ⟨?_, ?_, ?_⟩
  · intro ep hep
    rcases List.mem_append.mp hep with hep | hep
    · exact (hvalid.closed ep hep).1
    · exact (hvalid.opened ep hep).1
  · intro ep hep
    rcases List.mem_append.mp hep with hep | hep
    · rw [(hvalid.closed ep hep).2]; decide
    · rw [(hvalid.opened ep hep).2]; decide
  · rw [List.map_append]
    rcases hstart with heq | heq <;> rw [heq]
    · simpa using (List.pairwise_append.mp hvalid.starts).1
    · exact hvalid.starts

/-- A timeline has at most one active episode, the one left open. -/
theorem reconcileTimeline_active_unique {dim val : String} {signals : List DegradationSignal}
    (hseg : ∀ s ∈ signals, s.segmentDimension = dim ∧ s.segmentValue = val)
    (hs : signals.Pairwise fun a b => a.windowStart < b.windowStart)
    {a b : DegradationEpisode} (ha : a ∈ reconcileTimeline signals) (hactive : a.status = .active)
    (hb : b ∈ reconcileTimeline signals) (hactive' : b.status = .active) : a = b := by
  obtain ⟨bound, t, hvalid, heq⟩ := reconcileTimeline_valid hseg hs
  rw [heq] at ha hb
  have hopen : ∀ ep ∈ t.episodes ++ t.currentState.currentEpisode, ep.status = .active →
      ep ∈ t.currentState.currentEpisode := by
    intro ep hep hstatus
    rcases List.mem_append.mp hep with hep | hep
    · rw [(hvalid.closed ep hep).2] at hstatus
      cases hstatus
    · exact hep
  have hmem := hopen a ha hactive
  have hmem' := hopen b hb hactive'
  cases hstate : t.currentState <;>
    simp_all [StateMachineState.currentEpisode]

end RevenueRecovery
