import RevenueRecovery.Degradation.Reference

/-!
# Stage 3: the episodes of a timeline

Where the episodes of a timeline lie in it, and what becomes of them when the timeline
goes on.

## Main definitions
* `Occurs` : the windows of an episode among those of its timeline.
* `countedWindows` : the bad windows an episode counts.
* `Extends` : an episode after further windows.
-/
namespace RevenueRecovery

/-- The windows are in time order, one signal each. -/
def TimeOrdered (signals : List DegradationSignal) : Prop :=
  signals.Pairwise fun a b => a.windowStart < b.windowStart

/-- An episode opens with three bad windows of the word and takes the windows up to the
normal ones that close it, or up to the end. -/
structure Occurs (dim val : String) (word : List DegradationSignal) (ep : DegradationEpisode)
    (before opening rest after : List DegradationSignal) : Prop where
  word_eq : word = before ++ (opening ++ rest) ++ after
  length_eq : opening.length = 3
  bad : ∀ s ∈ opening, s.isBad
  episodeOf : EpisodeOf dim val (opening ++ rest) ep
  status : ep.status = .active ∧ ep.endedAtWindow = none ∧ after = [] ∨
    ep.status = .recovered ∧ ep.endedAtWindow = lastBad (opening ++ rest)

/-- The bad windows an episode counts: those from its start to its end. -/
def countedWindows (signals : List DegradationSignal) (ep : DegradationEpisode) :
    List DegradationSignal :=
  signals.filter fun s => s.isBad && decide (ep.startedAtWindow ≤ s.windowStart) &&
    ep.endedAtWindow.all fun e => decide (s.windowStart ≤ e)

section Episodes
variable {dim val : String} {word signals before opening rest after : List DegradationSignal}
  {ep : DegradationEpisode} {eps : List DegradationEpisode}

/-- Every episode of a scan occurs in its word. -/
theorem ReferenceScan.occurs (h : ReferenceScan dim val word eps) (hep : ep ∈ eps) :
    ∃ before opening rest after, Occurs dim val word ep before opening rest after := by
  induction h with
  | quiet => cases hep
  | @active before opening rest ep' hfirst _ hof hactive hended =>
      obtain rfl := List.mem_singleton.mp hep
      exact ⟨before, opening, rest, [], by simp, hfirst.length_eq, hfirst.all, hof,
        .inl ⟨hactive, hended, rfl⟩⟩
  | @recovered before opening rest closing after ep' eps hfirst _ hof hstatus hended _ ih =>
      rcases List.mem_cons.mp hep with rfl | hep
      · exact ⟨before, opening, rest, closing ++ after, by simp, hfirst.length_eq, hfirst.all,
          hof, .inr ⟨hstatus, hended⟩⟩
      · obtain ⟨before', opening', rest', after', hoccurs⟩ := ih hep
        refine ⟨before ++ (opening ++ rest) ++ closing ++ before', opening', rest', after', ?_,
          hoccurs.length_eq, hoccurs.bad, hoccurs.episodeOf, hoccurs.status⟩
        rw [hoccurs.word_eq]
        simp only [List.append_assoc]

theorem mem_countedWindows {s : DegradationSignal} :
    s ∈ countedWindows signals ep ↔ s ∈ signals ∧ s.isBad ∧
      ep.startedAtWindow ≤ s.windowStart ∧ ∀ e ∈ ep.endedAtWindow, s.windowStart ≤ e := by
  simp [countedWindows, Option.all_eq_true, and_assoc]

/-- Pause signals are not counted. -/
theorem countedWindows_observedWord (signals : List DegradationSignal)
    (ep : DegradationEpisode) :
    countedWindows (observedWord signals) ep = countedWindows signals ep := by
  unfold countedWindows observedWord
  rw [List.filter_filter]
  congr 1
  funext s
  cases hbad : s.isBad <;> simp [DegradationSignal.isObserved, hbad]

theorem TimeOrdered.observedWord (h : TimeOrdered signals) :
    TimeOrdered (observedWord signals) := h.sublist List.filter_sublist

/-- The last bad window is bad and none after it is. -/
theorem lastBad_spec {e : Time} (hs : TimeOrdered word) (h : lastBad word = some e) :
    (∃ s ∈ word, s.isBad ∧ s.windowStart = e) ∧ ∀ s ∈ word, s.isBad → s.windowStart ≤ e := by
  obtain ⟨last, hlast, rfl⟩ := Option.map_eq_some_iff.mp h
  obtain ⟨front, hfront⟩ := List.getLast?_eq_some_iff.mp hlast
  have hmem : last ∈ word.filter DegradationSignal.isBad := by simp [hfront]
  refine ⟨⟨last, List.mem_of_mem_filter hmem, (List.mem_filter.mp hmem).2, rfl⟩, ?_⟩
  intro s hsmem hbad
  have hordered : TimeOrdered (word.filter DegradationSignal.isBad) := hs.sublist List.filter_sublist
  have hin : s ∈ word.filter DegradationSignal.isBad := List.mem_filter.mpr ⟨hsmem, hbad⟩
  unfold TimeOrdered at hordered
  rw [hfront] at hordered hin
  rcases List.mem_append.mp hin with hin | hin
  · exact ((List.pairwise_append.mp hordered).2.2 s hin last (by simp)).le
  · rw [List.mem_singleton.mp hin]

/-- The windows of an episode do not lie before its start, those before it do. -/
theorem Occurs.started (h : Occurs dim val word ep before opening rest after)
    (hs : TimeOrdered word) :
    (∀ s ∈ before, s.windowStart < ep.startedAtWindow) ∧
      ∀ s ∈ opening ++ rest, ep.startedAtWindow ≤ s.windowStart := by
  have hstarted := h.episodeOf.started
  rcases hwindows : opening ++ rest with _ | ⟨first, more⟩
  · simp [hwindows] at hstarted
  · have hfirst : first.windowStart = ep.startedAtWindow := by simpa [hwindows] using hstarted
    rw [← hfirst]
    unfold TimeOrdered at hs
    rw [h.word_eq, hwindows, List.pairwise_append] at hs
    obtain ⟨hbefore, hmore, hcross⟩ := List.pairwise_append.mp hs.1
    refine ⟨fun s hs' => hcross s hs' first List.mem_cons_self, fun s hs' => ?_⟩
    rcases List.mem_cons.mp hs' with rfl | hs'
    · exact le_rfl
    · exact ((List.pairwise_cons.mp hmore).1 s hs').le

/-- The counted windows of an episode are the bad ones among its windows. -/
theorem Occurs.countedWindows_eq (h : Occurs dim val word ep before opening rest after)
    (hs : TimeOrdered word) :
    countedWindows word ep = (opening ++ rest).filter DegradationSignal.isBad := by
  obtain ⟨hbefore, hwindows⟩ := h.started hs
  have hordered := hs
  unfold TimeOrdered at hordered
  rw [h.word_eq, List.pairwise_append] at hordered
  have hbody : TimeOrdered (opening ++ rest) := (List.pairwise_append.mp hordered.1).2.1
  have hended : (∀ s ∈ opening ++ rest, s.isBad → ∀ e ∈ ep.endedAtWindow, s.windowStart ≤ e) ∧
      ∀ s ∈ after, ¬ ∀ e ∈ ep.endedAtWindow, s.windowStart ≤ e := by
    rcases h.status with ⟨-, hnone, rfl⟩ | ⟨-, hended⟩
    · simp [hnone]
    · obtain ⟨e, he⟩ := h.episodeOf.lastBad
      obtain ⟨⟨last, hlast, -, rfl⟩, hle⟩ := lastBad_spec hbody he
      rw [hended, he]
      refine ⟨fun s hs' hbad e' he' => ?_, fun s hs' hall => ?_⟩
      · obtain rfl := Option.some.inj he'
        exact hle s hs' hbad
      · have hlt := hordered.2.2 last (List.mem_append_right _ hlast) s hs'
        exact absurd (hall _ rfl) (not_le.mpr hlt)
  have hsplit : countedWindows word ep = countedWindows before ep ++
      countedWindows (opening ++ rest) ep ++ countedWindows after ep := by
    simp only [countedWindows, h.word_eq, List.filter_append]
  have hnil : countedWindows before ep = [] := by
    refine List.eq_nil_iff_forall_not_mem.mpr fun s hmem => ?_
    obtain ⟨hmem, -, hle, -⟩ := mem_countedWindows.mp hmem
    exact absurd hle (not_le.mpr (hbefore s hmem))
  have hnil' : countedWindows after ep = [] := by
    refine List.eq_nil_iff_forall_not_mem.mpr fun s hmem => ?_
    obtain ⟨hmem, -, -, hle⟩ := mem_countedWindows.mp hmem
    exact hended.2 s hmem hle
  rw [hsplit, hnil, hnil', List.nil_append, List.append_nil]
  refine List.filter_congr fun s hmem => ?_
  cases hbad : s.isBad
  · rfl
  · have hall : ep.endedAtWindow.all (fun e => decide (s.windowStart ≤ e)) = true := by
      rw [Option.all_eq_true]
      exact fun e he => decide_eq_true (hended.1 s hmem hbad e he)
    simp [hall, hwindows s hmem]

/-- Every episode occurs among the bad and normal signals of its timeline. -/
theorem reconcileTimeline_occurs (hseg : OfOneSegment dim val signals)
    (hep : ep ∈ reconcileTimeline signals) : ∃ before opening rest after,
      Occurs dim val (observedWord signals) ep before opening rest after :=
  (reconcileTimeline_referenceScan hseg).occurs hep

/-- An episode counts the bad windows from its start to its end. -/
theorem affectedWindowCount_eq (hseg : OfOneSegment dim val signals) (hs : TimeOrdered signals)
    (hep : ep ∈ reconcileTimeline signals) :
    ep.affectedWindowCount = (countedWindows signals ep).length := by
  obtain ⟨before, opening, rest, after, hoccurs⟩ := reconcileTimeline_occurs hseg hep
  rw [← countedWindows_observedWord, hoccurs.countedWindows_eq hs.observedWord,
    hoccurs.episodeOf.affected, List.countP_eq_length_filter]

/-! ## Episodes in time order -/

/-- Every episode but the last is recovered and ends before the next one starts. -/
structure DisjointEpisodes (eps : List DegradationEpisode) : Prop where
  ended : ∀ ep ∈ eps, ∀ e ∈ ep.endedAtWindow, ep.startedAtWindow ≤ e
  pairwise : eps.Pairwise fun a b => a.status = .recovered ∧
    ∃ e, a.endedAtWindow = some e ∧ e < b.startedAtWindow

/-- The episodes of a scan start at windows of its word. -/
theorem ReferenceScan.started_mem (h : ReferenceScan dim val word eps) (hep : ep ∈ eps) :
    ∃ s ∈ word, s.windowStart = ep.startedAtWindow := by
  obtain ⟨before, opening, rest, after, hoccurs⟩ := h.occurs hep
  obtain ⟨s, hs, heq⟩ := Option.map_eq_some_iff.mp hoccurs.episodeOf.started
  refine ⟨s, ?_, heq⟩
  rw [hoccurs.word_eq]
  exact List.mem_append_left _ (List.mem_append_right _ (List.mem_of_mem_head? hs))

theorem ReferenceScan.disjointEpisodes (h : ReferenceScan dim val word eps)
    (hs : TimeOrdered word) : DisjointEpisodes eps := by
  refine ⟨fun ep hep e he => ?_, ?_⟩
  · obtain ⟨before, opening, rest, after, hoccurs⟩ := h.occurs hep
    have hbody : TimeOrdered (opening ++ rest) := by
      refine hs.sublist ?_
      rw [hoccurs.word_eq]
      exact (List.sublist_append_right _ _).trans (List.sublist_append_left _ _)
    rcases hoccurs.status with ⟨-, hnone, -⟩ | ⟨-, hended⟩
    · rw [hnone] at he
      cases he
    · obtain ⟨⟨s, hmem, -, rfl⟩, -⟩ := lastBad_spec hbody (hended.symm.trans he)
      exact (hoccurs.started hs).2 s hmem
  · induction h with
    | quiet => exact .nil
    | active => exact List.pairwise_singleton _ _
    | @recovered before opening rest closing after ep eps hfirst hclosing hof hstatus hended
        hscan ih =>
        have hsplit := List.pairwise_append.mp hs
        have hbody : TimeOrdered (opening ++ rest) := hsplit.1.sublist
          ((List.sublist_append_right _ _).trans (List.sublist_append_left _ _))
        obtain ⟨e, he⟩ := hof.lastBad
        obtain ⟨⟨last, hlast, -, rfl⟩, -⟩ := lastBad_spec hbody he
        refine List.pairwise_cons.mpr ⟨fun ep' hep' => ⟨hstatus, _, hended.trans he, ?_⟩,
          ih hsplit.2.1⟩
        obtain ⟨s, hmem, heq⟩ := hscan.started_mem hep'
        rw [← heq]
        exact hsplit.2.2 last
          (List.mem_append_left _ (List.mem_append_right _ hlast)) s hmem

/-- On the signals of one segment, one for each window in time order and with no negative
drop on a bad one, the state machine returns what the reference scan of the bad and normal
signals does, and nothing else; pause signals may be deleted. -/
theorem reconcileTimeline_reference (dim val : String) (signals : List DegradationSignal)
    (hseg : OfOneSegment dim val signals) (hs : TimeOrdered signals)
    (hnonneg : NonnegDrops signals) :
    reconcileTimeline (observedWord signals) = reconcileTimeline signals ∧
      (∀ eps, ReferenceScan dim val (observedWord signals) eps ↔
        eps = reconcileTimeline signals) ∧
      DisjointEpisodes (reconcileTimeline signals) :=
  ⟨reconcileTimeline_observedWord hseg, fun _ => referenceScan_iff hseg hnonneg,
    (reconcileTimeline_referenceScan hseg).disjointEpisodes hs.observedWord⟩

end Episodes

namespace TimelineExample

/-- The signal of the five-minute window `k`. -/
def signal (kind : SignalType) (k : ℤ) (drop : ℚ) : DegradationSignal :=
  { segmentDimension := "currency", segmentValue := "INR", windowStart := Time.minutes (5 * k),
    evaluationVersion := 1, signalType := kind, baselineSuccessRate := some 1,
    absoluteDrop := some drop, relativeDrop := some drop, evaluationTimestamp := 0 }

/-- Three bad windows around a pause, a recovery, and one more bad window. -/
def paused : List DegradationSignal :=
  [signal .bad 0 (1 / 10), signal .bad 1 (2 / 10), signal .lowVolume 2 0,
    signal .bad 3 (1 / 10), signal .normal 4 0, signal .normal 5 0, signal .bad 6 (1 / 10)]

/-- Three bad windows ten hours apart, and no other signal. -/
def sparse : List DegradationSignal :=
  [signal .bad 0 (1 / 10), signal .bad 120 (1 / 10), signal .bad 240 (1 / 10)]

end TimelineExample

open TimelineExample in
theorem reconcileTimeline_reference_paused :
    ReferenceScan "currency" "INR" (observedWord paused) (reconcileTimeline paused) ∧
      (reconcileTimeline paused).map (·.affectedWindowCount) = [3] := by
  have href := reconcileTimeline_reference "currency" "INR" paused
    (by simp [OfOneSegment, paused, signal])
    (by unfold TimeOrdered; decide)
    (by unfold NonnegDrops; decide +kernel)
  exact ⟨(href.2.1 _).mpr rfl, by decide +kernel⟩

/-! ## Consecutive windows

The counter of bad windows runs over the signals there are. A window without a signal is
passed over like a pause signal. -/

/-- The first three bad windows an episode counts have no normal window between them, and
its timeline may lack the pause signals of any of its windows. -/
theorem episode_consecutive (dim val : String) (signals : List DegradationSignal)
    (hseg : OfOneSegment dim val signals) (hs : TimeOrdered signals) :
    (∀ ep ∈ reconcileTimeline signals, ∃ first second third more,
      countedWindows signals ep = first :: second :: third :: more ∧
      first.windowStart = ep.startedAtWindow ∧
      ∀ s ∈ signals, first.windowStart < s.windowStart → s.windowStart < third.windowStart →
        s = second ∨ s.signalType = .lowVolume ∨ s.signalType = .noBaseline) ∧
      ∀ filled, OfOneSegment dim val filled → observedWord filled = observedWord signals →
        reconcileTimeline filled = reconcileTimeline signals := by
  constructor
  · intro ep hep
    obtain ⟨before, opening, rest, after, hoccurs⟩ := reconcileTimeline_occurs hseg hep
    obtain ⟨a, b, c, rfl⟩ := List.length_eq_three.mp hoccurs.length_eq
    have hcounted := hoccurs.countedWindows_eq hs.observedWord
    have hbad : [a, b, c].filter DegradationSignal.isBad = [a, b, c] :=
      List.filter_eq_self.mpr hoccurs.bad
    rw [countedWindows_observedWord, List.filter_append, hbad] at hcounted
    refine ⟨a, b, c, _, hcounted, by simpa using hoccurs.episodeOf.started, ?_⟩
    intro s hmem hlt hlt'
    by_cases hobserved : s.isObserved
    · -- an observed signal between the first and the third is the second
      left
      have hin : s ∈ observedWord signals := List.mem_filter.mpr ⟨hmem, hobserved⟩
      have hordered := hs.observedWord
      unfold TimeOrdered at hordered
      rw [hoccurs.word_eq] at hin hordered
      simp only [List.pairwise_append, List.pairwise_cons, List.mem_append, List.mem_cons,
        List.cons_append, List.nil_append] at hin hordered
      obtain ⟨⟨-, ⟨-, hb, hc, -⟩, hbefore⟩, -, hafter⟩ := hordered
      rcases hin with (hin | rfl | rfl | rfl | hin) | hin
      · exact absurd hlt (hbefore s hin a (.inl rfl)).le.not_gt
      · exact absurd hlt (lt_irrefl _)
      · rfl
      · exact absurd hlt' (lt_irrefl _)
      · exact absurd hlt' (hc s hin).le.not_gt
      · exact absurd hlt' (hafter c (.inr (.inr (.inr (.inl rfl)))) s hin).le.not_gt
    · right
      unfold DegradationSignal.isObserved DegradationSignal.isBad DegradationSignal.isNormal
        at hobserved
      cases hk : s.signalType <;> simp_all
  · intro filled hfilled heq
    rw [← reconcileTimeline_observedWord hfilled, heq, reconcileTimeline_observedWord hseg]

open TimelineExample in
theorem episode_consecutive_paused :
    ∃ first second third more, countedWindows paused ⟨⟨"currency", "INR", 0⟩, "currency", "INR",
        0, some (Time.minutes 15), .recovered, 2 / 10, 3, .high⟩ =
          first :: second :: third :: more ∧
      first.windowStart = 0 ∧
      ∀ s ∈ paused, first.windowStart < s.windowStart → s.windowStart < third.windowStart →
        s = second ∨ s.signalType = .lowVolume ∨ s.signalType = .noBaseline :=
  (episode_consecutive "currency" "INR" paused (by simp [OfOneSegment, paused, signal])
    (by unfold TimeOrdered; decide)).1 _ (by decide +kernel)

open TimelineExample in
/-- Bad windows ten hours apart open an episode, and nothing is known of the windows
between them. -/
theorem not_observed_between :
    ¬ ∀ dim val signals, OfOneSegment dim val signals → TimeOrdered signals →
      ∀ ep ∈ reconcileTimeline signals, ∀ first second third more,
        countedWindows signals ep = first :: second :: third :: more →
        ∀ w, first.windowStart < w → w < third.windowStart →
          (w - first.windowStart) % Time.minutes 5 = 0 →
          ∃ s ∈ signals, s.windowStart = w ∧ s.signalType ≠ .normal := by
  intro hall
  have hobserved := hall "currency" "INR" sparse (by simp [OfOneSegment, sparse, signal])
    (by unfold TimeOrdered; decide)
    ⟨⟨"currency", "INR", 0⟩, "currency", "INR", 0, none, .active, 1 / 10, 3, .moderate⟩
    (by decide +kernel) (signal .bad 0 (1 / 10)) (signal .bad 120 (1 / 10))
    (signal .bad 240 (1 / 10)) [] (by decide +kernel) (Time.minutes 5) (by decide) (by decide)
    (by decide)
  exact absurd hobserved (by decide +kernel)

/-! ## Timelines that go on -/

/-- An episode after further windows: the same one, no smaller in any figure. -/
structure Extends (ep ep' : DegradationEpisode) : Prop where
  id_eq : ep'.episodeId = ep.episodeId
  started_eq : ep'.startedAtWindow = ep.startedAtWindow
  affected_le : ep.affectedWindowCount ≤ ep'.affectedWindowCount
  peak_le : ep.peakAbsoluteDrop ≤ ep'.peakAbsoluteDrop
  severity_le : ep.severity ≤ ep'.severity

theorem Extends.refl (ep : DegradationEpisode) : Extends ep ep :=
  ⟨rfl, rfl, le_rfl, le_rfl, le_rfl⟩

theorem Extends.trans {a b c : DegradationEpisode} (h : Extends a b) (h' : Extends b c) :
    Extends a c :=
  ⟨h'.id_eq.trans h.id_eq, h'.started_eq.trans h.started_eq, h.affected_le.trans h'.affected_le,
    h.peak_le.trans h'.peak_le, h.severity_le.trans h'.severity_le⟩

theorem extends_extendEpisode (ep : DegradationEpisode) (signal : DegradationSignal) :
    Extends ep (extendEpisode ep signal) := by
  refine ⟨rfl, rfl, Nat.le_succ _, ?_, (escalateSeverity_eq _ _).1⟩
  cases hd : signal.absoluteDrop with
  | none => simp [extendEpisode, hd]
  | some d =>
      simp only [extendEpisode, hd]
      split_ifs with hlt
      · exact hlt.le
      · exact le_rfl

section Stability
variable (dim val : String)

/-- Reading a signal extends the open episode, which stays open or is closed. -/
theorem nextState_extends (last : Option Time) {state : StateMachineState}
    {ep : DegradationEpisode} (signal : DegradationSignal) (h : state.currentEpisode = [ep]) :
    ∃ ep', Extends ep ep' ∧ (nextState dim val last state signal).2 ++
      (nextState dim val last state signal).1.currentEpisode = [ep'] := by
  rcases state with _ | ⟨count, first, pending⟩ | episode | ⟨episode, count⟩
  · cases h
  · cases h
  all_goals
    obtain rfl : episode = ep := by simpa [StateMachineState.currentEpisode] using h
    cases hk : signal.signalType <;> simp only [nextState, hk]
  case degraded.bad => exact ⟨_, extends_extendEpisode _ signal, rfl⟩
  case recoveryPending.bad => exact ⟨_, extends_extendEpisode _ signal, rfl⟩
  case recoveryPending.normal =>
      split_ifs
      · exact ⟨{ episode with status := .recovered, endedAtWindow := last },
          ⟨rfl, rfl, le_rfl, le_rfl, le_rfl⟩, rfl⟩
      · exact ⟨_, .refl _, rfl⟩
  all_goals exact ⟨_, .refl _, rfl⟩

/-- The closed episodes of a state are recovered, the open one is active. -/
structure Timeline.Statuses (t : Timeline) : Prop where
  closed : ∀ ep ∈ t.episodes, ep.status = .recovered
  opened : ∀ ep ∈ t.currentState.currentEpisode, ep.status = .active

theorem Timeline.Statuses.step {t : Timeline} (h : t.Statuses) (signal : DegradationSignal) :
    (timelineStep dim val t signal).Statuses := by
  obtain ⟨state, last, episodes⟩ := t
  obtain ⟨hclosed, hopened⟩ := h
  constructor
  · intro ep hep
    rcases List.mem_append.mp hep with hep | hep
    · exact hclosed ep hep
    · rcases state with _ | ⟨count, first, pending⟩ | episode | ⟨episode, count⟩ <;>
        cases hk : signal.signalType <;> simp only [hk] at hep <;>
        (try split_ifs at hep) <;> simp_all
  · intro ep hep
    rcases state with _ | ⟨count, first, pending⟩ | episode | ⟨episode, count⟩ <;>
      cases hk : signal.signalType <;> simp only [timelineStep, nextState, hk] at hep <;>
      (try split_ifs at hep) <;>
      simp_all [StateMachineState.currentEpisode, openEpisode, extendEpisode]

theorem Timeline.Statuses.foldl {t : Timeline} (h : t.Statuses) (signals : List DegradationSignal) :
    (signals.foldl (timelineStep dim val) t).Statuses := by
  induction signals generalizing t with
  | nil => exact h
  | cons signal signals ih => exact ih (h.step dim val signal)

/-- Closed episodes stay. -/
theorem episodes_foldl (t : Timeline) (signals : List DegradationSignal) :
    t.episodes <+: (signals.foldl (timelineStep dim val) t).episodes := by
  induction signals generalizing t with
  | nil => exact List.prefix_rfl
  | cons signal signals ih => exact List.IsPrefix.trans (List.prefix_append _ _) (ih (timelineStep dim val t signal))

/-- The open episode is extended, wherever the timeline goes. -/
theorem foldl_extends {t : Timeline} {ep : DegradationEpisode}
    (h : t.currentState.currentEpisode = [ep]) (signals : List DegradationSignal) :
    ∃ ep', Extends ep ep' ∧ t.episodes ++ [ep'] <+:
      (signals.foldl (timelineStep dim val) t).episodes ++
        (signals.foldl (timelineStep dim val) t).currentState.currentEpisode := by
  induction signals generalizing t ep with
  | nil => exact ⟨ep, .refl ep, by simp [h]⟩
  | cons signal signals ih =>
      obtain ⟨ep', hextends, hnext⟩ := nextState_extends dim val t.lastBadWindow signal h
      rcases List.append_eq_singleton_iff.mp hnext with ⟨hclosed, hopen⟩ | ⟨hclosed, hopen⟩
      · obtain ⟨ep'', hextends', hrest⟩ := ih (t := timelineStep dim val t signal) hopen
        have hepisodes : (timelineStep dim val t signal).episodes = t.episodes := by
          simp [timelineStep, hclosed]
        exact ⟨ep'', hextends.trans hextends', hepisodes ▸ hrest⟩
      · have hepisodes : (timelineStep dim val t signal).episodes = t.episodes ++ [ep'] := by
          simp [timelineStep, hclosed]
        exact ⟨ep', hextends, hepisodes ▸ (episodes_foldl dim val _ signals).trans
          (List.prefix_append _ _)⟩

end Stability

/-- When a timeline goes on, its recovered episodes stay as they are, and the one left
active is at the same place in the longer timeline, with figures no smaller. -/
theorem reconcileTimeline_stable (signals more : List DegradationSignal) :
    (reconcileTimeline signals).filter (fun ep => ep.status = .recovered) <+:
        reconcileTimeline (signals ++ more) ∧
      ∀ ep, (reconcileTimeline signals).getLast? = some ep → ep.status = .active →
        ∃ ep', (reconcileTimeline (signals ++ more))[(reconcileTimeline signals).length - 1]? =
          some ep' ∧ Extends ep ep' := by
  cases signals with
  | nil => exact ⟨List.nil_prefix, fun ep h => by cases h⟩
  | cons first rest =>
      have hstatuses := Timeline.Statuses.foldl first.segmentDimension first.segmentValue
        (t := ⟨.healthy, none, []⟩) ⟨by simp, by simp [StateMachineState.currentEpisode]⟩
        (first :: rest)
      simp only [reconcileTimeline, List.cons_append]
      rw [← List.cons_append, List.foldl_append]
      generalize (first :: rest).foldl
        (timelineStep first.segmentDimension first.segmentValue) ⟨.healthy, none, []⟩ = t
        at hstatuses ⊢
      obtain ⟨hclosed, hopened⟩ := hstatuses
      have hfilter : (t.episodes ++ t.currentState.currentEpisode).filter
          (fun ep => decide (ep.status = .recovered)) = t.episodes := by
        rw [List.filter_append, List.filter_eq_self.mpr (by simpa using hclosed),
          List.filter_eq_nil_iff.mpr (fun ep hep => by simp [hopened ep hep]), List.append_nil]
      refine ⟨?_, fun ep hlast hactive => ?_⟩
      · rw [hfilter]
        exact (episodes_foldl _ _ t more).trans (List.prefix_append _ _)
      · have hmem := List.mem_of_getLast? hlast
        have hopen : t.currentState.currentEpisode = [ep] := by
          rcases List.mem_append.mp hmem with hmem | hmem
          · rw [hclosed ep hmem] at hactive
            cases hactive
          · cases hstate : t.currentState <;>
              simp_all [StateMachineState.currentEpisode]
        obtain ⟨ep', hextends, hrest⟩ :=
          foldl_extends first.segmentDimension first.segmentValue hopen more
        refine ⟨ep', ?_, hextends⟩
        rw [hopen, List.length_append, List.length_singleton, Nat.add_sub_cancel]
        exact (List.prefix_iff_getElem?.mp hrest) t.episodes.length (by simp) ▸ by simp

end RevenueRecovery
