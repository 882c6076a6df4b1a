import Mathlib.Order.Bounds.Basic
import RevenueRecovery.Degradation.StateMachine
import RevenueRecovery.Lib.Streak

/-!
# Stage 3: the reference scan

What the state machine computes, said without its counters: the pause signals of a
timeline are left out, an episode opens at the first streak of three bad windows and
closes at the first two normal ones after it, and the scan resumes behind them.

## Main definitions
* `DegradationSignal.isObserved` : the signal is not a pause signal.
* `EpisodeOf` : what an episode records of its windows.
* `ReferenceScan` : the episodes of a word of bad and normal windows.
* `Occurs` : where in the word an episode lies.
-/
namespace RevenueRecovery

def DegradationSignal.isBad (s : DegradationSignal) : Bool := s.signalType = .bad

def DegradationSignal.isNormal (s : DegradationSignal) : Bool := s.signalType = .normal

/-- The signal is bad or normal; the others pause the timeline. -/
def DegradationSignal.isObserved (s : DegradationSignal) : Bool := s.isBad || s.isNormal

/-- Severities in the order of `escalate_severity`. -/
instance : PartialOrder Severity :=
  PartialOrder.lift Severity.rank fun a b h => by cases a <;> cases b <;> first | rfl | cases h

/-- The drops of the bad windows are not negative. -/
def NonnegDrops (signals : List DegradationSignal) : Prop :=
  ∀ s ∈ signals, s.isBad → ∀ d ∈ s.absoluteDrop, 0 ≤ d

/-- What an episode records of its windows, bad and normal: it starts at the first one,
counts the bad ones, and has their largest severity and, none being negative, drop. -/
structure EpisodeOf (dim val : String) (windows : List DegradationSignal)
    (ep : DegradationEpisode) : Prop where
  segment : ep.OfSegment dim val
  started : windows.head?.map (·.windowStart) = some ep.startedAtWindow
  affected : ep.affectedWindowCount = windows.countP DegradationSignal.isBad
  peak : NonnegDrops windows →
    IsGreatest {d | ∃ s ∈ windows, s.isBad ∧ s.absoluteDrop.getD 0 = d} ep.peakAbsoluteDrop
  severity : IsGreatest {v | ∃ s ∈ windows, s.isBad ∧ signalSeverity s = v} ep.severity

/-- The last bad window of a word. -/
def lastBad (windows : List DegradationSignal) : Option Time :=
  (windows.filter DegradationSignal.isBad).getLast?.map (·.windowStart)

/-- The episodes of a word of bad and normal windows. -/
inductive ReferenceScan (dim val : String) :
    List DegradationSignal → List DegradationEpisode → Prop
  | quiet {word} : ¬ Streak.Has DegradationSignal.isBad 3 word → ReferenceScan dim val word []
  | active {before opening rest ep} :
      Streak.IsFirst DegradationSignal.isBad 3 before opening →
      ¬ Streak.Has DegradationSignal.isNormal 2 (opening ++ rest) →
      EpisodeOf dim val (opening ++ rest) ep → ep.status = .active → ep.endedAtWindow = none →
      ReferenceScan dim val (before ++ (opening ++ rest)) [ep]
  | recovered {before opening rest closing after ep eps} :
      Streak.IsFirst DegradationSignal.isBad 3 before opening →
      Streak.IsFirst DegradationSignal.isNormal 2 (opening ++ rest) closing →
      EpisodeOf dim val (opening ++ rest) ep → ep.status = .recovered →
      ep.endedAtWindow = lastBad (opening ++ rest) → ReferenceScan dim val after eps →
      ReferenceScan dim val (before ++ (opening ++ rest) ++ closing ++ after) (ep :: eps)

section Windows
variable {dim val : String} {windows : List DegradationSignal} {signal : DegradationSignal}
  {ep ep' : DegradationEpisode}

/-! ## What an episode records -/

/-- The windows, the status and the end determine the episode. -/
theorem EpisodeOf.unique (h : EpisodeOf dim val windows ep) (h' : EpisodeOf dim val windows ep')
    (hnonneg : NonnegDrops windows) (hstatus : ep.status = ep'.status) (hended : ep.endedAtWindow = ep'.endedAtWindow) :
    ep = ep' := by
  have hstarted : ep.startedAtWindow = ep'.startedAtWindow :=
    Option.some.inj (h.started.symm.trans h'.started)
  have hid : ep.episodeId = ep'.episodeId := by
    rw [h.segment.id_eq, h'.segment.id_eq, hstarted]
  have hdim := h.segment.dimension_eq.trans h'.segment.dimension_eq.symm
  have hval := h.segment.value_eq.trans h'.segment.value_eq.symm
  have hcount := h.affected.trans h'.affected.symm
  have hpeak := (h.peak hnonneg).unique (h'.peak hnonneg)
  have hseverity := h.severity.unique h'.severity
  cases ep
  cases ep'
  simp_all

/-- A normal window changes nothing. -/
theorem EpisodeOf.append_normal (h : EpisodeOf dim val windows ep) (hbad : ¬ signal.isBad) :
    EpisodeOf dim val (windows ++ [signal]) ep := by
  have hmem : ∀ {P : DegradationSignal → Prop},
      (∃ s ∈ windows ++ [signal], s.isBad ∧ P s) ↔ ∃ s ∈ windows, s.isBad ∧ P s := by
    intro P
    constructor
    · rintro ⟨s, hs, hsbad, hP⟩
      rcases List.mem_append.mp hs with hs | hs
      · exact ⟨s, hs, hsbad, hP⟩
      · exact absurd (List.mem_singleton.mp hs ▸ hsbad) hbad
    · rintro ⟨s, hs, hP⟩
      exact ⟨s, List.mem_append_left _ hs, hP⟩
  refine ⟨h.segment, ?_, ?_, ?_, ?_⟩
  · have := h.started
    cases windows <;> simp_all
  · simpa [List.countP_append, hbad] using h.affected
  · intro hnonneg
    simpa only [hmem] using h.peak fun s hs => hnonneg s (List.mem_append_left _ hs)
  · simpa only [hmem] using h.severity

/-- Escalating takes the larger severity. -/
theorem escalateSeverity_eq (a b : Severity) :
    a ≤ escalateSeverity a b ∧ b ≤ escalateSeverity a b ∧
      (escalateSeverity a b = a ∨ escalateSeverity a b = b) := by
  change a.rank ≤ (escalateSeverity a b).rank ∧ b.rank ≤ (escalateSeverity a b).rank ∧ _
  unfold escalateSeverity
  split
  · exact ⟨by omega, le_rfl, .inr rfl⟩
  · exact ⟨le_rfl, by omega, .inl rfl⟩

/-- The larger of a greatest element and a further one. -/
private theorem isGreatest_concat {β : Type*} [Preorder β] {f : DegradationSignal → β} {m b : β}
    (h : IsGreatest {v | ∃ s ∈ windows, s.isBad ∧ f s = v} m) (hbad : signal.isBad)
    (hm : m ≤ b) (hsignal : f signal ≤ b) (hb : b = m ∨ b = f signal) :
    IsGreatest {v | ∃ s ∈ windows ++ [signal], s.isBad ∧ f s = v} b := by
  constructor
  · rcases hb with rfl | rfl
    · obtain ⟨s, hs, hP⟩ := h.1
      exact ⟨s, List.mem_append_left _ hs, hP⟩
    · exact ⟨signal, by simp, hbad, rfl⟩
  · rintro v ⟨s, hs, hsbad, rfl⟩
    rcases List.mem_append.mp hs with hs | hs
    · exact (h.2 ⟨s, hs, hsbad, rfl⟩).trans hm
    · rwa [List.mem_singleton.mp hs]

/-- The largest drop is not negative either. -/
private theorem NonnegDrops.le_of_isGreatest {m : ℚ} (h : NonnegDrops windows)
    (hm : IsGreatest {d | ∃ s ∈ windows, s.isBad ∧ s.absoluteDrop.getD 0 = d} m) : 0 ≤ m := by
  obtain ⟨s, hs, hbad, rfl⟩ := hm.1
  cases hd : s.absoluteDrop with
  | none => exact le_rfl
  | some d => exact h s hs hbad d hd

private theorem extendEpisode_peak (h : 0 ≤ ep.peakAbsoluteDrop) :
    (extendEpisode ep signal).peakAbsoluteDrop =
      max ep.peakAbsoluteDrop (signal.absoluteDrop.getD 0) := by
  cases hd : signal.absoluteDrop with
  | none => simp [extendEpisode, hd, h]
  | some d =>
      simp only [extendEpisode, hd, Option.getD_some]
      split_ifs with hlt
      · exact (max_eq_right hlt.le).symm
      · exact (max_eq_left (not_lt.mp hlt)).symm

/-- A further bad window is counted and may raise the drop and the severity. -/
theorem EpisodeOf.append_bad (h : EpisodeOf dim val windows ep) (hbad : signal.isBad) :
    EpisodeOf dim val (windows ++ [signal]) (extendEpisode ep signal) := by
  refine ⟨⟨h.segment.id_eq, h.segment.dimension_eq, h.segment.value_eq⟩, ?_, ?_, ?_, ?_⟩
  · have := h.started
    cases windows <;> simp_all [extendEpisode]
  · simp [extendEpisode, List.countP_append, hbad, h.affected]
  · intro hnonneg
    have hmore : NonnegDrops windows := fun s hs => hnonneg s (List.mem_append_left _ hs)
    have hpeak := h.peak hmore
    rw [extendEpisode_peak (hmore.le_of_isGreatest hpeak)]
    exact isGreatest_concat hpeak hbad (le_max_left _ _) (le_max_right _ _) (max_choice _ _)
  · obtain ⟨hle, hle', heq⟩ := escalateSeverity_eq ep.severity (signalSeverity signal)
    exact isGreatest_concat h.severity hbad hle hle' heq

private theorem peakAbsoluteDrop_concat (h0 : 0 ≤ peakAbsoluteDrop windows)
    (hnonneg : ∀ d ∈ signal.absoluteDrop, 0 ≤ d) :
    peakAbsoluteDrop (windows ++ [signal]) =
      max (peakAbsoluteDrop windows) (signal.absoluteDrop.getD 0) := by
  cases hd : signal.absoluteDrop with
  | none =>
      rw [Option.getD_none, max_eq_left h0]
      simp [peakAbsoluteDrop, List.filterMap_append, hd]
  | some d =>
      have hd0 : 0 ≤ d := hnonneg d hd
      rcases hw : windows.filterMap (·.absoluteDrop) with _ | ⟨e, es⟩ <;>
        simp only [peakAbsoluteDrop, List.filterMap_append, hw, List.filterMap_cons, hd,
          List.filterMap_nil, List.nil_append, List.cons_append, List.foldl_append,
          List.foldl_cons, List.foldl_nil, Option.getD_some]
      exact (max_eq_right hd0).symm

/-- The opening bad windows have their largest drop. -/
private theorem isGreatest_opening_peak {first : DegradationSignal}
    {more : List DegradationSignal} (hbad : ∀ s ∈ first :: more, s.isBad)
    (hnonneg : NonnegDrops (first :: more)) :
    IsGreatest {d | ∃ s ∈ first :: more, s.isBad ∧ s.absoluteDrop.getD 0 = d}
      (peakAbsoluteDrop (first :: more)) := by
  induction more using List.reverseRecOn with
  | nil =>
      have hfirst : first.isBad := hbad first List.mem_cons_self
      cases hd : first.absoluteDrop <;>
        simp [peakAbsoluteDrop, hd, hfirst, IsGreatest, upperBounds]
  | append_singleton more signal ih =>
      rw [← List.cons_append] at hbad hnonneg ⊢
      have hmore : NonnegDrops (first :: more) :=
        fun s hs => hnonneg s (List.mem_append_left _ hs)
      have hgreatest := ih (fun s hs => hbad s (List.mem_append_left _ hs)) hmore
      have hsignal : signal.isBad := hbad signal (by simp)
      rw [peakAbsoluteDrop_concat (hmore.le_of_isGreatest hgreatest)
        (hnonneg signal (by simp) hsignal)]
      exact isGreatest_concat hgreatest hsignal (le_max_left _ _) (le_max_right _ _)
        (max_choice _ _)

/-- The opening bad windows have their largest severity. -/
private theorem isGreatest_opening_severity {first : DegradationSignal}
    {more : List DegradationSignal} (hbad : ∀ s ∈ first :: more, s.isBad) :
    IsGreatest {v | ∃ s ∈ first :: more, s.isBad ∧ signalSeverity s = v}
      ((first :: more).foldl (fun sev s => escalateSeverity sev (signalSeverity s))
        .moderate) := by
  induction more using List.reverseRecOn with
  | nil =>
      have hfirst : first.isBad := hbad first List.mem_cons_self
      have hseverity : escalateSeverity .moderate (signalSeverity first) =
          signalSeverity first := by
        cases signalSeverity first <;> rfl
      simp [hseverity, hfirst, IsGreatest, upperBounds]
  | append_singleton more signal ih =>
      rw [← List.cons_append] at hbad ⊢
      have hgreatest := ih fun s hs => hbad s (List.mem_append_left _ hs)
      rw [List.foldl_append, List.foldl_cons, List.foldl_nil]
      obtain ⟨hle, hle', heq⟩ := escalateSeverity_eq
        ((first :: more).foldl (fun sev s => escalateSeverity sev (signalSeverity s)) .moderate)
        (signalSeverity signal)
      exact isGreatest_concat hgreatest (hbad signal (by simp)) hle hle' heq

/-- The episode opened by bad windows records them. -/
theorem openEpisode_episodeOf {first : DegradationSignal} {more : List DegradationSignal}
    (hbad : ∀ s ∈ first :: more, s.isBad) :
    EpisodeOf dim val (first :: more)
      (openEpisode dim val first.windowStart (more.length + 1) (first :: more)) where
  segment := ⟨rfl, rfl, rfl⟩
  started := rfl
  affected := (List.countP_eq_length.mpr hbad).symm
  peak := isGreatest_opening_peak hbad
  severity := isGreatest_opening_severity hbad

end Windows

section Word
variable {dim val : String} {t : Timeline} {word before opening rest closing : List DegradationSignal}

/-! ## The state machine on a word -/

/-- The state that has read bad windows since the last normal one. -/
def pendingState : List DegradationSignal → StateMachineState
  | [] => .healthy
  | first :: more => .badPending (more.length + 1) first.windowStart (first :: more)

/-- The state of an open episode that has read normal windows since the last bad one. -/
def openState (ep : DegradationEpisode) : List DegradationSignal → StateMachineState
  | [] => .degraded ep
  | _ :: more => .recoveryPending ep (more.length + 1)

theorem timelineStep_of_nextState {state : StateMachineState} {signal : DegradationSignal}
    {next : StateMachineState} {closed : List DegradationEpisode} (ht : t.currentState = state)
    (h : nextState dim val t.lastBadWindow state signal = (next, closed)) :
    (timelineStep dim val t signal).currentState = next ∧
      (timelineStep dim val t signal).episodes = t.episodes ++ closed := by
  subst ht
  simp only [timelineStep, h, and_self]

section Step
variable {last : Option Time} {signal : DegradationSignal} {pending : List DegradationSignal}
  {ep : DegradationEpisode}

theorem nextState_pending_bad (hkind : signal.signalType = .bad) (hlt : pending.length + 1 < 3) :
    nextState dim val last (pendingState pending) signal =
      (pendingState (pending ++ [signal]), []) := by
  rcases pending with _ | ⟨first, more⟩
  · simp [pendingState, nextState, hkind]
  · have hcount : ¬ more.length + 1 + 1 ≥ requiredConsecutiveWindows := by
      simp only [List.length_cons] at hlt
      unfold requiredConsecutiveWindows
      omega
    simp [pendingState, nextState, hkind, hcount]

theorem nextState_pending_open {first second : DegradationSignal}
    (hkind : signal.signalType = .bad) :
    nextState dim val last (pendingState [first, second]) signal =
      (.degraded (openEpisode dim val first.windowStart 3 [first, second, signal]), []) := by
  simp [pendingState, nextState, hkind, requiredConsecutiveWindows]

theorem nextState_pending_normal (hkind : signal.signalType = .normal) :
    nextState dim val last (pendingState pending) signal = (.healthy, []) := by
  cases pending <;> simp [pendingState, nextState, hkind]

theorem nextState_open_bad {normals : List DegradationSignal}
    (hkind : signal.signalType = .bad) :
    nextState dim val last (openState ep normals) signal =
      (.degraded (extendEpisode ep signal), []) := by
  cases normals <;> simp [openState, nextState, hkind]

theorem nextState_open_normal (hkind : signal.signalType = .normal) :
    nextState dim val last (openState ep []) signal = (openState ep [signal], []) := by
  simp [openState, nextState, hkind]

theorem nextState_closing {first : DegradationSignal} (hkind : signal.signalType = .normal) :
    nextState dim val last (openState ep [first]) signal =
      (.healthy, [{ ep with status := .recovered, endedAtWindow := last }]) := by
  simp [openState, nextState, hkind, recoveryConsecutiveWindows]

end Step

/-- The word has no pause signal. -/
def WithoutPauses (word : List DegradationSignal) : Prop := ∀ s ∈ word, s.isObserved

theorem DegradationSignal.isObserved_cases {s : DegradationSignal} (h : s.isObserved) :
    s.signalType = .bad ∧ s.isBad ∧ ¬ s.isNormal ∨
      s.signalType = .normal ∧ ¬ s.isBad ∧ s.isNormal := by
  unfold isObserved isBad isNormal at *
  cases hk : s.signalType <;> simp_all

theorem DegradationSignal.signalType_of_isBad {s : DegradationSignal} (h : s.isBad) :
    s.signalType = .bad := by simpa [isBad] using h

theorem DegradationSignal.signalType_of_isNormal {s : DegradationSignal} (h : s.isNormal) :
    s.signalType = .normal := by simpa [isNormal] using h

theorem lastBad_append (v w : List DegradationSignal) :
    lastBad (v ++ w) = (lastBad w).or (lastBad v) := by
  unfold lastBad
  rw [List.filter_append, List.getLast?_append]
  cases (w.filter DegradationSignal.isBad).getLast? <;> rfl

/-- The loop remembers the last bad window. -/
theorem foldl_lastBadWindow (dim val : String) (t : Timeline) (word : List DegradationSignal) :
    (word.foldl (timelineStep dim val) t).lastBadWindow = (lastBad word).or t.lastBadWindow := by
  induction word using List.reverseRecOn with
  | nil => rfl
  | append_singleton word s ih =>
      rw [List.foldl_append, List.foldl_cons, List.foldl_nil, lastBad_append]
      by_cases hbad : s.signalType = .bad <;>
        simp [timelineStep, lastBad, DegradationSignal.isBad, hbad, ih]

/-- Without a streak of three bad windows the state holds the trailing bad ones. -/
theorem foldl_quiet (dim val : String) (hpauses : WithoutPauses word)
    (hquiet : ¬ Streak.Has DegradationSignal.isBad 3 word) (ht : t.currentState = .healthy) :
    (word.foldl (timelineStep dim val) t).currentState =
        pendingState (word.rtakeWhile DegradationSignal.isBad) ∧
      (word.foldl (timelineStep dim val) t).episodes = t.episodes := by
  induction word using List.reverseRecOn with
  | nil => exact ⟨ht, rfl⟩
  | append_singleton word s ih =>
      obtain ⟨hstate, hepisodes⟩ :=
        ih (fun s' hs' => hpauses s' (List.mem_append_left _ hs'))
          fun h => hquiet (Streak.has_concat.mpr (.inl h))
      have hlt := Streak.length_rtakeWhile_lt hquiet
      rw [List.foldl_append, List.foldl_cons, List.foldl_nil, ← hepisodes]
      rcases DegradationSignal.isObserved_cases (hpauses s (by simp)) with
        ⟨hkind, hbad, -⟩ | ⟨hkind, hbad, -⟩
      · rw [List.rtakeWhile_concat_pos _ _ _ hbad] at hlt ⊢
        rw [List.length_append, List.length_singleton] at hlt
        simpa using timelineStep_of_nextState hstate (nextState_pending_bad hkind hlt)
      · rw [List.rtakeWhile_concat_neg _ _ _ hbad]
        simpa [pendingState] using
          timelineStep_of_nextState hstate (nextState_pending_normal hkind)

/-- An episode that has just read these windows and is still open. -/
structure OpenAfter (dim val : String) (windows : List DegradationSignal)
    (ep : DegradationEpisode) : Prop extends EpisodeOf dim val windows ep where
  active : ep.status = .active
  not_ended : ep.endedAtWindow = none

/-- The third bad window in a row opens an episode at the first of them. -/
theorem foldl_opening (dim val : String) (hpauses : WithoutPauses before)
    (hfirst : Streak.IsFirst DegradationSignal.isBad 3 before opening)
    (ht : t.currentState = .healthy) :
    ∃ ep, OpenAfter dim val opening ep ∧
      ((before ++ opening).foldl (timelineStep dim val) t).currentState = .degraded ep ∧
      ((before ++ opening).foldl (timelineStep dim val) t).episodes = t.episodes := by
  have htrail := hfirst.rtakeWhile_eq
  obtain ⟨a, b, c, rfl⟩ := List.length_eq_three.mp hfirst.length_eq
  have hprefix : WithoutPauses (before ++ [a, b]) := by
    intro s hs
    rcases List.mem_append.mp hs with hs | hs
    · exact hpauses s hs
    · have hbad := hfirst.all s (List.mem_of_mem_dropLast hs)
      simp [DegradationSignal.isObserved, hbad]
  obtain ⟨hstate, hepisodes⟩ := foldl_quiet dim val hprefix
    hfirst.none_before ht
  have hkind : c.signalType = .bad :=
    DegradationSignal.signalType_of_isBad (hfirst.all c (by simp))
  have hsplit : before ++ [a, b, c] = before ++ [a, b] ++ [c] := by simp
  obtain ⟨hnext, hnext'⟩ := timelineStep_of_nextState (hstate.trans (congrArg _ htrail))
    (nextState_pending_open hkind)
  refine ⟨_, ⟨@openEpisode_episodeOf dim val a [b, c] hfirst.all, rfl, rfl⟩,
    ?_, ?_⟩ <;> rw [hsplit, List.foldl_append, List.foldl_cons, List.foldl_nil]
  · exact hnext
  · rw [hnext', hepisodes, List.append_nil]

/-- Without two normal windows in a row an open episode stays open. -/
theorem foldl_open {ep : DegradationEpisode} (hpauses : WithoutPauses rest)
    (hopen : ¬ Streak.Has DegradationSignal.isNormal 2 (opening ++ rest))
    (hopening : ∀ s ∈ opening, s.isBad) (hep : OpenAfter dim val opening ep)
    (ht : t.currentState = .degraded ep) :
    ∃ ep', OpenAfter dim val (opening ++ rest) ep' ∧
      (rest.foldl (timelineStep dim val) t).currentState =
        openState ep' ((opening ++ rest).rtakeWhile DegradationSignal.isNormal) ∧
      (rest.foldl (timelineStep dim val) t).episodes = t.episodes := by
  induction rest using List.reverseRecOn with
  | nil =>
      have htrail : opening.rtakeWhile DegradationSignal.isNormal = [] := by
        refine List.rtakeWhile_eq_nil_iff.mpr fun hne hnormal => ?_
        have hbad := hopening _ (List.getLast_mem hne)
        have hkind := DegradationSignal.signalType_of_isBad hbad
        simp [DegradationSignal.isNormal, hkind] at hnormal
      refine ⟨ep, by simpa using hep, ?_, rfl⟩
      simpa [htrail, openState] using ht
  | append_singleton rest s ih =>
      rw [← List.append_assoc] at hopen ⊢
      obtain ⟨ep', hep', hstate, hepisodes⟩ :=
        ih (fun s' hs' => hpauses s' (List.mem_append_left _ hs'))
          fun h => hopen (Streak.has_concat.mpr (.inl h))
      have hlt := Streak.length_rtakeWhile_lt hopen
      rw [List.foldl_append, List.foldl_cons, List.foldl_nil, ← hepisodes]
      rcases DegradationSignal.isObserved_cases (hpauses s (by simp)) with
        ⟨hkind, hbad, hnormal⟩ | ⟨hkind, hbad, hnormal⟩
      · obtain ⟨hnext, hnext'⟩ := timelineStep_of_nextState hstate (nextState_open_bad hkind)
        rw [List.rtakeWhile_concat_neg _ _ _ hnormal]
        exact ⟨extendEpisode ep' s, ⟨hep'.append_bad hbad, hep'.active, hep'.not_ended⟩,
          hnext, hnext'.trans (List.append_nil _)⟩
      · rw [List.rtakeWhile_concat_pos _ _ _ hnormal] at hlt ⊢
        rw [List.length_append, List.length_singleton] at hlt
        have hnil : (opening ++ rest).rtakeWhile DegradationSignal.isNormal = [] :=
          List.eq_nil_of_length_eq_zero (by omega)
        rw [hnil] at hstate ⊢
        obtain ⟨hnext, hnext'⟩ := timelineStep_of_nextState hstate (nextState_open_normal hkind)
        exact ⟨ep', ⟨hep'.append_normal hbad, hep'.active, hep'.not_ended⟩, hnext,
          hnext'.trans (List.append_nil _)⟩

/-- Two normal windows in a row close the episode at its last bad window. -/
theorem foldl_closing {ep : DegradationEpisode} {windows : List DegradationSignal}
    (hclosing : Streak.IsFirst DegradationSignal.isNormal 2 windows closing)
    (ht : t.currentState = openState ep (windows.rtakeWhile DegradationSignal.isNormal)) :
    (closing.foldl (timelineStep dim val) t).currentState = .healthy ∧
      (closing.foldl (timelineStep dim val) t).episodes =
        t.episodes ++ [{ ep with status := .recovered, endedAtWindow := t.lastBadWindow }] := by
  have htrail := hclosing.rtakeWhile_eq
  obtain ⟨a, b, rfl⟩ := List.length_eq_two.mp hclosing.length_eq
  have hnormal : a.isNormal := hclosing.all a (by simp)
  have hkind := DegradationSignal.signalType_of_isNormal hnormal
  have hnil : windows.rtakeWhile DegradationSignal.isNormal = [] := by
    have htrail' : (windows ++ [a]).rtakeWhile DegradationSignal.isNormal = [a] := htrail
    rw [List.rtakeWhile_concat_pos _ _ _ hnormal] at htrail'
    simpa using htrail'
  rw [hnil] at ht
  obtain ⟨hfirst, hfirst'⟩ := timelineStep_of_nextState ht (nextState_open_normal hkind)
  have hlast : (timelineStep dim val t a).lastBadWindow = t.lastBadWindow := by
    simp [timelineStep, hkind]
  have hkind' := DegradationSignal.signalType_of_isNormal (hclosing.all b (by simp))
  obtain ⟨hsecond, hsecond'⟩ := timelineStep_of_nextState hfirst
    (@nextState_closing dim val _ _ _ _ hkind')
  refine ⟨hsecond, ?_⟩
  rw [List.foldl_cons, List.foldl_cons, List.foldl_nil, hsecond', hfirst', hlast,
    List.append_nil]

/-! ## The scan and the state machine agree -/

/-- An open episode is emitted at the end of the timeline. -/
theorem currentEpisode_openState (ep : DegradationEpisode) (normals : List DegradationSignal) :
    (openState ep normals).currentEpisode = [ep] := by
  cases normals <;> rfl

theorem currentEpisode_pendingState (pending : List DegradationSignal) :
    (pendingState pending).currentEpisode = [] := by
  cases pending <;> rfl

/-- Status and end of an episode say nothing about its windows. -/
theorem EpisodeOf.ended {windows : List DegradationSignal} {ep : DegradationEpisode}
    (h : EpisodeOf dim val windows ep) (status : EpisodeStatus) (ended : Option Time) :
    EpisodeOf dim val windows { ep with status := status, endedAtWindow := ended } :=
  ⟨⟨h.segment.id_eq, h.segment.dimension_eq, h.segment.value_eq⟩, h.started, h.affected, h.peak,
    h.severity⟩

/-- An episode has a last bad window. -/
theorem EpisodeOf.lastBad {windows : List DegradationSignal} {ep : DegradationEpisode}
    (h : EpisodeOf dim val windows ep) : ∃ e, lastBad windows = some e := by
  obtain ⟨s, hs, hbad, -⟩ := h.severity.1
  have hne : windows.filter DegradationSignal.isBad ≠ [] :=
    List.ne_nil_of_mem (List.mem_filter.mpr ⟨hs, hbad⟩)
  exact ⟨_, by rw [RevenueRecovery.lastBad, List.getLast?_eq_getLast_of_ne_nil hne]; rfl⟩

/-- From the first three bad windows in a row the loop has one open episode until two
normal windows in a row. -/
theorem foldl_episode (dim val : String) (hpauses : WithoutPauses (before ++ (opening ++ rest)))
    (hfirst : Streak.IsFirst DegradationSignal.isBad 3 before opening)
    (hopen : ¬ Streak.Has DegradationSignal.isNormal 2 (opening ++ rest))
    (ht : t.currentState = .healthy) :
    ∃ ep, OpenAfter dim val (opening ++ rest) ep ∧
      ((before ++ (opening ++ rest)).foldl (timelineStep dim val) t).currentState =
        openState ep ((opening ++ rest).rtakeWhile DegradationSignal.isNormal) ∧
      ((before ++ (opening ++ rest)).foldl (timelineStep dim val) t).episodes = t.episodes := by
  obtain ⟨ep, hep, hstate, hepisodes⟩ := foldl_opening dim val
    (fun s hs => hpauses s (List.mem_append_left _ hs)) hfirst ht
  rw [← List.append_assoc, List.foldl_append, ← hepisodes]
  exact foldl_open (fun s hs => hpauses s (by simp [hs])) hopen hfirst.all hep hstate

/-- Two normal windows in a row close it. -/
theorem foldl_recovered (dim val : String)
    (hpauses : WithoutPauses (before ++ (opening ++ rest)))
    (hfirst : Streak.IsFirst DegradationSignal.isBad 3 before opening)
    (hclosing : Streak.IsFirst DegradationSignal.isNormal 2 (opening ++ rest) closing)
    (ht : t.currentState = .healthy) :
    ∃ ep, EpisodeOf dim val (opening ++ rest) ep ∧ ep.status = .recovered ∧
      ep.endedAtWindow = lastBad (opening ++ rest) ∧
      ((before ++ (opening ++ rest) ++ closing).foldl (timelineStep dim val) t).currentState =
        .healthy ∧
      ((before ++ (opening ++ rest) ++ closing).foldl (timelineStep dim val) t).episodes =
        t.episodes ++ [ep] := by
  have hopen : ¬ Streak.Has DegradationSignal.isNormal 2 (opening ++ rest) := fun h =>
    hclosing.none_before (h.mono (List.prefix_append _ _).isInfix)
  obtain ⟨ep, hep, hstate, hepisodes⟩ := foldl_episode dim val hpauses hfirst hopen ht
  obtain ⟨hhealthy, hclosed⟩ := foldl_closing hclosing hstate
  obtain ⟨e, he⟩ := hep.lastBad
  have hlast := foldl_lastBadWindow dim val t (before ++ (opening ++ rest))
  rw [lastBad_append, he, Option.some_or, Option.some_or, ← he] at hlast
  rw [List.foldl_append]
  refine ⟨_, hep.ended .recovered (lastBad (opening ++ rest)), rfl, rfl, hhealthy, ?_⟩
  rw [hclosed, hepisodes, hlast]

/-- A scan returns the episodes of the loop: the closed ones and the one left open. -/
theorem ReferenceScan.foldl {eps : List DegradationEpisode} (h : ReferenceScan dim val word eps)
    (hpauses : WithoutPauses word) (hnonneg : NonnegDrops word) (ht : t.currentState = .healthy) :
    (word.foldl (timelineStep dim val) t).episodes ++
        (word.foldl (timelineStep dim val) t).currentState.currentEpisode =
      t.episodes ++ eps := by
  induction h generalizing t with
  | quiet hquiet =>
      obtain ⟨hstate, hepisodes⟩ := foldl_quiet dim val hpauses hquiet ht
      rw [hstate, hepisodes, currentEpisode_pendingState]
  | @active before opening rest ep hfirst hopen hep hactive hended =>
      obtain ⟨ep', hep', hstate, hepisodes⟩ := foldl_episode dim val hpauses hfirst hopen ht
      rw [hstate, hepisodes, currentEpisode_openState, hep'.unique hep
        (fun s hs => hnonneg s (List.mem_append_right _ hs))
        (hep'.active.trans hactive.symm) (hep'.not_ended.trans hended.symm)]
  | @recovered before opening rest closing after ep eps hfirst hclosing hep hstatus hended _ ih =>
      have hwindows : WithoutPauses (before ++ (opening ++ rest)) := fun s hs =>
        hpauses s (List.mem_append_left _ (List.mem_append_left _ hs))
      have hdrops : NonnegDrops (opening ++ rest) := fun s hs => hnonneg s
        (List.mem_append_left _ (List.mem_append_left _ (List.mem_append_right _ hs)))
      obtain ⟨ep', hep', hstatus', hended', hhealthy, hclosed⟩ :=
        foldl_recovered dim val hwindows hfirst hclosing ht
      rw [hep'.unique hep hdrops (hstatus'.trans hstatus.symm) (hended'.trans hended.symm)]
        at hclosed
      rw [List.foldl_append, ih (fun s hs => hpauses s (List.mem_append_right _ hs))
        (fun s hs => hnonneg s (List.mem_append_right _ hs)) hhealthy, hclosed,
        List.append_assoc, List.singleton_append]

/-- Bad windows are not where an episode closes. -/
private theorem closing_after_opening {windows after after' : List DegradationSignal}
    (hsplit : opening ++ after = windows ++ closing ++ after')
    (hbad : ∀ s ∈ opening, s.isBad)
    (hclosing : Streak.IsFirst DegradationSignal.isNormal 2 windows closing) :
    ∃ rest, windows = opening ++ rest := by
  obtain ⟨n₁, n₂, rfl⟩ := List.length_eq_two.mp hclosing.length_eq
  have hnormal := hclosing.all n₁ (by simp)
  rw [List.append_assoc] at hsplit
  rcases List.append_eq_append_iff.mp hsplit with ⟨rest, rfl, -⟩ | ⟨more, rfl, hmore⟩
  · exact ⟨rest, rfl⟩
  · rcases more with _ | ⟨s, more⟩
    · exact ⟨[], by simp⟩
    · obtain ⟨rfl, -⟩ : n₁ = s ∧ _ := by simpa using hmore
      have hkind := DegradationSignal.signalType_of_isBad (hbad n₁ (by simp))
      simp [DegradationSignal.isNormal, hkind] at hnormal

/-- The loop scans every word. -/
theorem exists_referenceScan (dim val : String) (hpauses : WithoutPauses word)
    (ht : t.currentState = .healthy) :
    ∃ eps, ReferenceScan dim val word eps ∧
      (word.foldl (timelineStep dim val) t).episodes ++
          (word.foldl (timelineStep dim val) t).currentState.currentEpisode =
        t.episodes ++ eps := by
  induction hn : word.length using Nat.strong_induction_on generalizing word t with
  | h n ih =>
      by_cases hbad : Streak.Has DegradationSignal.isBad 3 word
      · obtain ⟨before, opening, after, rfl, hfirst⟩ := hbad.exists_isFirst
        rw [List.append_assoc] at hpauses hn ⊢
        by_cases hnormal : Streak.Has DegradationSignal.isNormal 2 (opening ++ after)
        · obtain ⟨windows, closing, after', hsplit, hclosing⟩ := hnormal.exists_isFirst
          obtain ⟨rest, rfl⟩ := closing_after_opening hsplit hfirst.all hclosing
          rw [hsplit, ← List.append_assoc, ← List.append_assoc] at hpauses hn ⊢
          have hwindows : WithoutPauses (before ++ (opening ++ rest)) := fun s hs =>
            hpauses s (List.mem_append_left _ (List.mem_append_left _ hs))
          obtain ⟨ep, hep, hstatus, hended, hhealthy, hclosed⟩ :=
            foldl_recovered dim val hwindows hfirst hclosing ht
          have hlength := hfirst.length_eq
          obtain ⟨eps, heps, hfold⟩ := ih after'.length
            (by simp only [List.length_append] at hn; omega)
            (fun s hs => hpauses s (List.mem_append_right _ hs)) hhealthy rfl
          refine ⟨ep :: eps, .recovered hfirst hclosing hep hstatus hended heps, ?_⟩
          rw [List.foldl_append, hfold, hclosed, List.append_assoc, List.singleton_append]
        · obtain ⟨ep, hep, hstate, hepisodes⟩ :=
            foldl_episode dim val hpauses hfirst hnormal ht
          refine ⟨[ep], .active hfirst hnormal hep.toEpisodeOf hep.active hep.not_ended, ?_⟩
          rw [hstate, hepisodes, currentEpisode_openState]
      · obtain ⟨hstate, hepisodes⟩ := foldl_quiet dim val hpauses hbad ht
        refine ⟨[], .quiet hbad, ?_⟩
        rw [hstate, hepisodes, currentEpisode_pendingState]

/-! ## The episodes of a timeline -/

/-- A pause signal leaves the loop variables as they are. -/
theorem timelineStep_pause {s : DegradationSignal} (h : ¬ s.isObserved) :
    timelineStep dim val t s = t := by
  obtain ⟨state, last, episodes⟩ := t
  unfold DegradationSignal.isObserved DegradationSignal.isBad DegradationSignal.isNormal at h
  cases hk : s.signalType <;> cases state <;> simp_all [timelineStep, nextState]

theorem foldl_filter_observed (word : List DegradationSignal) :
    (word.filter DegradationSignal.isObserved).foldl (timelineStep dim val) t =
      word.foldl (timelineStep dim val) t := by
  rw [List.foldl_filter]
  congr 1
  funext t s
  split_ifs with h
  · rfl
  · exact (timelineStep_pause h).symm

/-- All signals are of one segment. -/
def OfOneSegment (dim val : String) (signals : List DegradationSignal) : Prop :=
  ∀ s ∈ signals, s.segmentDimension = dim ∧ s.segmentValue = val

theorem reconcileTimeline_eq_foldl {signals : List DegradationSignal}
    (h : OfOneSegment dim val signals) :
    reconcileTimeline signals =
      (signals.foldl (timelineStep dim val) ⟨.healthy, none, []⟩).episodes ++
        (signals.foldl (timelineStep dim val) ⟨.healthy, none, []⟩).currentState.currentEpisode := by
  cases signals with
  | nil => rfl
  | cons first rest =>
      obtain ⟨rfl, rfl⟩ := h first List.mem_cons_self
      rfl

/-- The bad and normal signals of a timeline. -/
def observedWord (signals : List DegradationSignal) : List DegradationSignal :=
  signals.filter DegradationSignal.isObserved

theorem withoutPauses_observedWord (signals : List DegradationSignal) :
    WithoutPauses (observedWord signals) := fun _ hs => (List.mem_filter.mp hs).2

theorem reconcileTimeline_observedWord {signals : List DegradationSignal}
    (h : OfOneSegment dim val signals) :
    reconcileTimeline (observedWord signals) = reconcileTimeline signals := by
  rw [reconcileTimeline_eq_foldl h, observedWord, reconcileTimeline_eq_foldl
    (fun s hs => h s (List.mem_of_mem_filter hs)), foldl_filter_observed]

/-- The episodes of a timeline are a scan of its bad and normal signals. -/
theorem reconcileTimeline_referenceScan {signals : List DegradationSignal}
    (h : OfOneSegment dim val signals) :
    ReferenceScan dim val (observedWord signals) (reconcileTimeline signals) := by
  obtain ⟨eps, hscan, hfold⟩ := exists_referenceScan (t := ⟨.healthy, none, []⟩) dim val
    (withoutPauses_observedWord signals) rfl
  rw [reconcileTimeline_eq_foldl h, ← foldl_filter_observed signals]
  exact hfold ▸ hscan

/-- And there is no other one. -/
theorem referenceScan_iff {signals : List DegradationSignal} (h : OfOneSegment dim val signals)
    (hnonneg : NonnegDrops signals) {eps : List DegradationEpisode} :
    ReferenceScan dim val (observedWord signals) eps ↔ eps = reconcileTimeline signals := by
  constructor
  · intro hscan
    have hfold := hscan.foldl (t := ⟨.healthy, none, []⟩) (withoutPauses_observedWord signals)
      (fun s hs => hnonneg s (List.mem_of_mem_filter hs)) rfl
    rw [reconcileTimeline_eq_foldl h, ← foldl_filter_observed signals]
    exact hfold.symm
  · rintro rfl
    exact reconcileTimeline_referenceScan h

end Word

end RevenueRecovery
