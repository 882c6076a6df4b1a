import Mathlib.Data.Fintype.EquivFin
import RevenueRecovery.Analytics.Conservation
import RevenueRecovery.Lib.Reorder

/-!
# Stage 2: recalculating the windows of late events

The windows of the events ingested after an instant are recalculated one after another, in
the order the set of windows happens to be iterated in. A baseline is the median of stored
success rates, so a window has to come after those of the four weeks before it that are
recalculated too. The order does not matter exactly when no two of the windows are one to
four weeks apart (`recalculateLateEvents_orderIndependent_iff`).

## Main definitions
* `AnalyticsStore` : the events and the snapshots, with their unique keys.
* `LateEvents` : a set of late events.
* `recalculateLateEvents` : the snapshots after the late events are taken in.
* `OrderIndependent` : every order has the result of the chronological one.
* `WeeksApart` : one window is a historical window of the other.
-/
namespace RevenueRecovery

/-! ## Service -/

/-- What Stage 2 reads and writes. -/
structure AnalyticsStore where
  events : List PaymentEvent
  snapshots : List PaymentHealthSnapshot
  eventKeys : events.Pairwise fun a b => a.sameIdentity b = false
  snapshotKeys : (snapshots.map PaymentHealthSnapshot.identity).Nodup

def getEventsIngestedAfter (events : List PaymentEvent) (ingestedAfter : Time) :
    List PaymentEvent :=
  events.filter fun e => ingestedAfter < e.ingestedAt ∧ e.inRazorpayPipeline

/-- The windows the late events fall into. -/
def affectedWindows (events : List PaymentEvent) : List Time := assignedWindows events

/-- Recalculate windows one after another. -/
def recalculateWindows (events : List PaymentEvent) (stored : List PaymentHealthSnapshot)
    (windows : List Time) : List PaymentHealthSnapshot :=
  windows.foldl (fun stored w => calculateAndSaveWindow events stored w (w + Time.minutes 5))
    stored

/-- The snapshots after the windows of late events are recalculated in the order `iterate`
lists the set of them. -/
def recalculateLateEvents (iterate : List Time → List Time) (store : AnalyticsStore)
    (sinceIngestedAt : Time) : List PaymentHealthSnapshot :=
  recalculateWindows store.events store.snapshots
    (iterate (affectedWindows (getEventsIngestedAfter store.events sinceIngestedAt)))

/-! ## Orders -/

/-- The windows from the earliest to the latest. -/
def chronological (windows : List Time) : List Time := windows.insertionSort (· ≤ ·)

/-- Events of Stage 2 that were all ingested after an instant. -/
structure LateEvents (sinceIngestedAt : Time) where
  events : List PaymentEvent
  keys : events.Pairwise fun a b => a.sameIdentity b = false
  late : ∀ e ∈ events, sinceIngestedAt < e.ingestedAt ∧ e.inRazorpayPipeline = true

/-- In every store with these late events, every order of the windows leaves the snapshots
the chronological order leaves. -/
def OrderIndependent {sinceIngestedAt : Time} (late : LateEvents sinceIngestedAt) : Prop :=
  ∀ store : AnalyticsStore, getEventsIngestedAfter store.events sinceIngestedAt = late.events →
    ∀ iterate : List Time → List Time, (∀ windows, (iterate windows).Perm windows) →
      (recalculateLateEvents iterate store sinceIngestedAt).Perm
        (recalculateLateEvents chronological store sinceIngestedAt)

/-- The first window is the second one's window one to four weeks before it. -/
def WeeksApart (a b : Time) : Prop := a ∈ historicalStarts b 4

instance (a b : Time) : Decidable (WeeksApart a b) :=
  inferInstanceAs (Decidable (_ ∈ historicalStarts _ _))

theorem weeksApart_iff {a b : Time} : WeeksApart a b ↔
    ∃ i : ℕ, i < 4 ∧ a = b - Time.weeks (i + 1) := by
  unfold WeeksApart historicalStarts
  simp [eq_comm]

theorem WeeksApart.lt {a b : Time} (h : WeeksApart a b) : a < b := by
  obtain ⟨i, -, rfl⟩ := weeksApart_iff.mp h
  have hweek : Time.weeks (i + 1) = (i + 1) * 604800000000 := by
    unfold Time.weeks Time.minutes Time.seconds
    lia
  rw [hweek]
  lia

theorem chronological_perm (windows : List Time) : (chronological windows).Perm windows :=
  List.perm_insertionSort _ _

theorem nodup_affectedWindows (events : List PaymentEvent) : (affectedWindows events).Nodup :=
  List.nodup_dedup _

/-! ## Baselines -/

section Median
variable {xs ys : List ℚ}

/-- A median does not tell the order of the values. -/
theorem median_perm (h : xs.Perm ys) : median xs = median ys := by
  have hsorted : xs.insertionSort (· ≤ ·) = ys.insertionSort (· ≤ ·) := by
    refine List.Perm.eq_of_pairwise' (r := (· ≤ ·)) (List.pairwise_insertionSort _ _)
      (List.pairwise_insertionSort _ _) ?_
    exact ((List.perm_insertionSort _ xs).trans h).trans (List.perm_insertionSort _ ys).symm
  unfold median
  rw [hsorted]

/-- Some values have a median. -/
theorem isSome_median (h : xs ≠ []) : (median xs).isSome := by
  have hlength : 0 < (xs.insertionSort (· ≤ ·)).length := by
    rw [List.length_insertionSort]
    exact List.length_pos_iff.mpr h
  unfold median
  dsimp only
  split
  · rw [List.getElem?_eq_getElem (by omega)]
    rfl
  · rw [List.getElem?_eq_getElem (by omega), List.getElem?_eq_getElem (by omega)]
    rfl

end Median

/-! ## One window -/

section Window
variable {events : List PaymentEvent} {stored stored' new : List PaymentHealthSnapshot}
  {windowStart windowEnd a b : Time} {s : PaymentHealthSnapshot}

theorem identity_windowSnapshots (events : List PaymentEvent)
    (stored : List PaymentHealthSnapshot) (windowStart windowEnd : Time) :
    (windowSnapshots events stored windowStart windowEnd).map PaymentHealthSnapshot.identity =
      (calculateHealthMetricsForWindow (getEventsInWindow events windowStart windowEnd)
        windowStart windowEnd minTransactionThreshold).map PaymentHealthSnapshot.identity := by
  unfold windowSnapshots
  rw [List.map_map]
  rfl

theorem nodup_windowSnapshots (events : List PaymentEvent)
    (stored : List PaymentHealthSnapshot) (windowStart windowEnd : Time) :
    ((windowSnapshots events stored windowStart windowEnd).map
      PaymentHealthSnapshot.identity).Nodup := by
  rw [identity_windowSnapshots]
  exact nodup_calculateHealthMetricsForWindow _ _ _ _

theorem windowSnapshots_windowStart
    (h : s ∈ windowSnapshots events stored windowStart windowEnd) : s.windowStart = windowStart := by
  obtain ⟨raw, hraw, rfl⟩ := List.mem_map.mp h
  simp only [calculateHealthMetricsForWindow, List.mem_flatMap, List.mem_map] at hraw
  obtain ⟨_, -, _, -, rfl⟩ := hraw
  rfl

/-- The snapshots after a window: its own ones and the stored ones of other segments. -/
theorem mem_calculateAndSaveWindow :
    s ∈ calculateAndSaveWindow events stored windowStart windowEnd ↔
      s ∈ windowSnapshots events stored windowStart windowEnd ∨ s ∈ stored ∧ s.identity ∉
        (windowSnapshots events stored windowStart windowEnd).map PaymentHealthSnapshot.identity :=
  Table.mem_foldl_upsert (nodup_windowSnapshots ..)

theorem nodup_upsertSnapshots (h : (stored.map PaymentHealthSnapshot.identity).Nodup)
    (new : List PaymentHealthSnapshot) :
    ((upsertSnapshots stored new).map PaymentHealthSnapshot.identity).Nodup := by
  induction new generalizing stored with
  | nil => exact h
  | cons s new ih => exact ih (Table.nodup_upsert (fun _ _ _ => rfl) h)

/-- A baseline does not tell the order of the stored snapshots. -/
theorem windowSnapshots_perm (h : stored.Perm stored') :
    windowSnapshots events stored windowStart windowEnd =
      windowSnapshots events stored' windowStart windowEnd := by
  refine List.map_congr_left fun s _ => ?_
  have hbaseline : ∀ w dimension value,
      calculateBaseline (getHistoricalSnapshots stored w dimension value 4) =
        calculateBaseline (getHistoricalSnapshots stored' w dimension value 4) :=
    fun _ _ _ => median_perm ((h.filter _).filterMap _)
  unfold withBaseline
  dsimp only
  rw [hbaseline]

/-- Snapshots of a window that is no historical one leave a baseline alone. -/
theorem getHistoricalSnapshots_upsertSnapshots (hapart : ¬ WeeksApart a b)
    (hnew : ∀ s ∈ new, s.windowStart = a) (dimension value : String) :
    getHistoricalSnapshots (upsertSnapshots stored new) b dimension value 4 =
      getHistoricalSnapshots stored b dimension value 4 := by
  induction new generalizing stored with
  | nil => rfl
  | cons s new ih =>
      obtain ⟨hs, hnew⟩ := List.forall_mem_cons.mp hnew
      have hskip : ∀ r : PaymentHealthSnapshot, r.windowStart = a →
          decide (r.windowStart ∈ historicalStarts b 4 ∧ r.segmentDimension = dimension ∧
            r.segmentValue = value) = false :=
        fun r hr => decide_eq_false fun hin => hapart (hr ▸ hin.1)
      refine (ih hnew).trans (Table.filter_upsert (hskip s hs) fun r _ hkey => ?_)
      exact ⟨hskip r ((Prod.mk.inj hkey).1.trans hs), hskip s hs⟩

theorem windowSnapshots_calculateAndSaveWindow (hapart : ¬ WeeksApart a b) (aEnd bEnd : Time) :
    windowSnapshots events (calculateAndSaveWindow events stored a aEnd) b bEnd =
      windowSnapshots events stored b bEnd := by
  refine List.map_congr_left fun s hs => ?_
  have hstart : s.windowStart = b := by
    simp only [calculateHealthMetricsForWindow, List.mem_flatMap, List.mem_map] at hs
    obtain ⟨_, -, _, -, rfl⟩ := hs
    rfl
  unfold withBaseline
  dsimp only
  rw [hstart, calculateAndSaveWindow, getHistoricalSnapshots_upsertSnapshots hapart
    fun s hs => windowSnapshots_windowStart hs]

end Window

/-! ## Windows in any order -/

/-- The same rows, one for each identity. -/
def SameRows (stored stored' : List PaymentHealthSnapshot) : Prop :=
  stored.Perm stored' ∧ (stored.map PaymentHealthSnapshot.identity).Nodup

section Orders
variable {events : List PaymentEvent} {stored stored' : List PaymentHealthSnapshot} {a b : Time}

theorem SameRows.of_mem (h : (stored.map PaymentHealthSnapshot.identity).Nodup)
    (h' : (stored'.map PaymentHealthSnapshot.identity).Nodup)
    (hmem : ∀ s, s ∈ stored ↔ s ∈ stored') : SameRows stored stored' :=
  ⟨(List.perm_ext_iff_of_nodup h.of_map h'.of_map).mpr hmem, h⟩

theorem SameRows.nodup (h : SameRows stored stored') :
    (stored'.map PaymentHealthSnapshot.identity).Nodup := (h.1.map _).nodup_iff.mp h.2

theorem SameRows.trans {stored'' : List PaymentHealthSnapshot} (h : SameRows stored stored')
    (h' : SameRows stored' stored'') : SameRows stored stored'' := ⟨h.1.trans h'.1, h.2⟩

/-- Recalculating a window depends on the rows only. -/
theorem SameRows.calculateAndSaveWindow (h : SameRows stored stored') (a aEnd : Time) :
    SameRows (calculateAndSaveWindow events stored a aEnd)
      (calculateAndSaveWindow events stored' a aEnd) := by
  refine .of_mem (nodup_upsertSnapshots h.2 _) (nodup_upsertSnapshots h.nodup _) fun s => ?_
  rw [mem_calculateAndSaveWindow, mem_calculateAndSaveWindow, windowSnapshots_perm h.1,
    h.1.mem_iff]

/-- Windows neither of which is a historical one of the other can be swapped. -/
theorem calculateAndSaveWindow_comm (h : (stored.map PaymentHealthSnapshot.identity).Nodup)
    (hne : a ≠ b) (hab : ¬ WeeksApart a b) (hba : ¬ WeeksApart b a) (aEnd bEnd : Time) :
    SameRows
      (calculateAndSaveWindow events (calculateAndSaveWindow events stored a aEnd) b bEnd)
      (calculateAndSaveWindow events (calculateAndSaveWindow events stored b bEnd) a aEnd) := by
  have hother : ∀ {x y xEnd yEnd : Time} {s : PaymentHealthSnapshot}, x ≠ y →
      s ∈ windowSnapshots events stored x xEnd → s.identity ∉
        (windowSnapshots events stored y yEnd).map PaymentHealthSnapshot.identity := by
    intro x y xEnd yEnd s hxy hs hmem
    obtain ⟨s', hs', hkey⟩ := List.mem_map.mp hmem
    have hstart := (Prod.mk.inj hkey).1
    rw [windowSnapshots_windowStart hs, windowSnapshots_windowStart hs'] at hstart
    exact hxy hstart.symm
  refine .of_mem (nodup_upsertSnapshots (nodup_upsertSnapshots h _) _)
    (nodup_upsertSnapshots (nodup_upsertSnapshots h _) _) fun s => ?_
  simp only [mem_calculateAndSaveWindow, windowSnapshots_calculateAndSaveWindow hab,
    windowSnapshots_calculateAndSaveWindow hba]
  have hkeysA : s ∈ windowSnapshots events stored a aEnd → s.identity ∉
      (windowSnapshots events stored b bEnd).map PaymentHealthSnapshot.identity := hother hne
  have hkeysB : s ∈ windowSnapshots events stored b bEnd → s.identity ∉
      (windowSnapshots events stored a aEnd).map PaymentHealthSnapshot.identity := hother hne.symm
  tauto

/-- Windows no two of which are weeks apart can be recalculated in any order. -/
theorem recalculateWindows_perm {windows windows' : List Time} (hperm : windows.Perm windows')
    (hnodup : windows.Nodup) (hapart : ∀ a ∈ windows, ∀ b ∈ windows, ¬ WeeksApart a b)
    (h : (stored.map PaymentHealthSnapshot.identity).Nodup) :
    (recalculateWindows events stored windows).Perm
      (recalculateWindows events stored windows') := by
  let Apart (a b : Time) : Prop := a ≠ b ∧ ¬ WeeksApart a b ∧ ¬ WeeksApart b a
  have hwindows : windows.Pairwise Apart :=
    hnodup.imp_of_mem fun ha hb hne => ⟨hne, hapart _ ha _ hb, hapart _ hb _ ha⟩
  have hsame : SameRows (recalculateWindows events stored windows)
      (recalculateWindows events stored windows') :=
    Reorder.foldl_perm SameRows Apart SameRows.trans
      (fun _ _ w hsame => hsame.calculateAndSaveWindow w (w + Time.minutes 5))
      (fun h => ⟨h.1.symm, h.2.2, h.2.1⟩)
      (fun _ a b hsame h => calculateAndSaveWindow_comm hsame.2 h.1 h.2.1 h.2.2
        (a + Time.minutes 5) (b + Time.minutes 5))
      hperm hwindows ⟨.refl _, h⟩
  exact hsame.1

end Orders

/-! ## Windows weeks apart -/

/-- The global snapshot of a window, its baseline not yet known. -/
def globalSnapshot (events : List PaymentEvent) (w : Time) : PaymentHealthSnapshot :=
  segmentSnapshot w (w + Time.minutes 5) "GLOBAL" "ALL" minTransactionThreshold
    (getEventsInWindow events w (w + Time.minutes 5))

section Stale
variable {events : List PaymentEvent} {stored : List PaymentHealthSnapshot}
  {windows before after : List Time} {a b w : Time} {s : PaymentHealthSnapshot}

variable (events) in
theorem nodup_recalculateWindows (h : (stored.map PaymentHealthSnapshot.identity).Nodup)
    (windows : List Time) : ((recalculateWindows events stored windows).map
      PaymentHealthSnapshot.identity).Nodup := by
  induction windows generalizing stored with
  | nil => exact h
  | cons w windows ih => exact ih (nodup_upsertSnapshots h _)

/-- Recalculating other windows keeps a row. -/
theorem mem_recalculateWindows (hs : s ∈ stored) (hw : s.windowStart ∉ windows) :
    s ∈ recalculateWindows events stored windows := by
  induction windows generalizing stored with
  | nil => exact hs
  | cons w windows ih =>
      obtain ⟨hne, hw⟩ := not_or.mp (List.mem_cons.not.mp hw)
      refine ih (mem_calculateAndSaveWindow.mpr (.inr ⟨hs, fun hmem => hne ?_⟩)) hw
      obtain ⟨s', hs', hkey⟩ := List.mem_map.mp hmem
      rw [← windowSnapshots_windowStart hs']
      exact (Prod.mk.inj hkey).1.symm

variable (stored before) in
/-- A window keeps the rows it got when its turn came. -/
theorem mem_recalculateWindows_turn (hw : w ∉ after)
    (hs : s ∈ windowSnapshots events (recalculateWindows events stored before) w
      (w + Time.minutes 5)) :
    s ∈ recalculateWindows events stored (before ++ w :: after) := by
  unfold recalculateWindows
  rw [List.foldl_append, List.foldl_cons]
  refine mem_recalculateWindows (mem_calculateAndSaveWindow.mpr (.inl hs)) ?_
  rwa [windowSnapshots_windowStart hs]

theorem globalSnapshot_mem (stored : List PaymentHealthSnapshot)
    (h : getEventsInWindow events w (w + Time.minutes 5) ≠ []) :
    withBaseline stored (globalSnapshot events w) ∈
      windowSnapshots events stored w (w + Time.minutes 5) := by
  refine List.mem_map_of_mem (List.mem_flatMap.mpr ⟨"GLOBAL", by decide, ?_⟩)
  have hall : (getEventsInWindow events w (w + Time.minutes 5)).filter
      (fun e => w ≤ e.timestamp ∧ e.timestamp < w + Time.minutes 5) =
        getEventsInWindow events w (w + Time.minutes 5) := by
    refine List.filter_eq_self.mpr fun e he => ?_
    have hin := of_decide_eq_true (List.mem_filter.mp he).2
    exact decide_eq_true ⟨hin.1, hin.2.1⟩
  have hvalue : ∀ events : List PaymentEvent,
      events.filter (fun e => getSegmentValue e "GLOBAL" = "ALL") = events :=
    fun events => List.filter_eq_self.mpr fun _ _ => rfl
  refine List.mem_map.mpr ⟨"ALL", ?_, ?_⟩
  · rw [if_neg fun hempty => h hempty.1, hall, mem_segmentValues]
    obtain ⟨e, he⟩ := List.exists_mem_of_ne_nil _ h
    exact ⟨e, he, rfl⟩
  · rw [hall, hvalue]
    rfl

/-- A captured event gives a window a success rate. -/
theorem successRate_globalSnapshot {e : PaymentEvent}
    (he : e ∈ getEventsInWindow events w (w + Time.minutes 5))
    (hcaptured : e.eventType = capturedEventType) :
    ∃ r, (globalSnapshot events w).successRate = some r := by
  have hmem : e ∈ (getEventsInWindow events w (w + Time.minutes 5)).filter
      fun e => e.eventType = capturedEventType :=
    List.mem_filter.mpr ⟨he, decide_eq_true hcaptured⟩
  have hpos := List.length_pos_of_mem hmem
  unfold globalSnapshot segmentSnapshot rate
  dsimp only
  rw [if_neg (by omega)]
  exact ⟨_, rfl⟩

/-- A stored success rate of a historical window gives a baseline. -/
theorem baseline_of_historical (h : WeeksApart a b) (hs : s ∈ stored) (hstart : s.windowStart = a)
    {g : PaymentHealthSnapshot} (hg : g.windowStart = b)
    (hdimension : s.segmentDimension = g.segmentDimension)
    (hvalue : s.segmentValue = g.segmentValue) {r : ℚ} (hr : s.successRate = some r) :
    (withBaseline stored g).baselineSuccessRate.isSome := by
  refine isSome_median (List.ne_nil_of_mem (a := r) (List.mem_filterMap.mpr ⟨s, ?_, hr⟩))
  refine List.mem_filter.mpr ⟨hs, decide_eq_true ⟨?_, hdimension, hvalue⟩⟩
  rw [hstart, hg]
  exact h

end Stale

/-- A captured event of a window, recorded by the time late events are looked for. -/
def knownCapture (e : PaymentEvent) (eventId : ℕ) (sourceEventId : String) (w since : Time) :
    PaymentEvent :=
  { e with
    eventId := eventId
    sourceEventId := sourceEventId
    timestamp := w
    eventType := capturedEventType
    ingestedAt := since }

/-- A store with late events and a captured event already known in one of their windows. -/
theorem LateEvents.exists_store {since : Time} (late : LateEvents since) {w : Time}
    (hw : w ∈ affectedWindows late.events) : ∃ store : AnalyticsStore,
      getEventsIngestedAfter store.events since = late.events ∧ store.snapshots = [] ∧
      ∃ known ∈ store.events, known.timestamp = w ∧ known.eventType = capturedEventType ∧
        known.inRazorpayPipeline = true := by
  obtain ⟨e, he, -⟩ := List.mem_map.mp (List.mem_dedup.mp hw)
  obtain ⟨sourceEventId, hfresh⟩ :=
    Infinite.exists_notMem_finset (late.events.map (·.sourceEventId)).toFinset
  let known := knownCapture e (Table.maxOf (·.eventId) late.events + 1) sourceEventId w since
  have hkeys : (late.events ++ [known]).Pairwise fun a b => a.sameIdentity b = false := by
    refine List.pairwise_append.mpr ⟨late.keys, List.pairwise_singleton _ _, ?_⟩
    intro x hx y hy
    obtain rfl := List.mem_singleton.mp hy
    have hid : x.eventId ≠ known.eventId := Table.maxOf_succ_fresh hx
    have hsource : x.sourceEventId ≠ known.sourceEventId := by
      intro heq
      have hmem := List.mem_map_of_mem (f := fun e : PaymentEvent => e.sourceEventId) hx
      rw [heq] at hmem
      exact hfresh (List.mem_toFinset.mpr hmem)
    simp [PaymentEvent.sameIdentity, hid, hsource]
  refine ⟨⟨late.events ++ [known], [], hkeys, List.nodup_nil⟩, ?_, rfl, known, by simp, rfl, rfl,
    (late.late e he).2⟩
  have hknown : ¬ (since < known.ingestedAt) := lt_irrefl since
  unfold getEventsIngestedAfter
  rw [List.filter_append, List.filter_eq_self.mpr fun x hx => decide_eq_true (late.late x hx)]
  simp [hknown]

theorem mem_getEventsInWindow_of_affected {since : Time} {late : LateEvents since}
    {store : AnalyticsStore} (hlate : getEventsIngestedAfter store.events since = late.events)
    {w : Time} (hw : w ∈ affectedWindows late.events) :
    getEventsInWindow store.events w (w + Time.minutes 5) ≠ [] := by
  obtain ⟨e, he, rfl⟩ := List.mem_map.mp (List.mem_dedup.mp hw)
  rw [← hlate] at he
  obtain ⟨hstored, hin⟩ := List.mem_filter.mp he
  have hwindow := mem_window_iff.mpr (show Time.windowStart e.timestamp = _ from rfl)
  refine List.ne_nil_of_mem (a := e) (List.mem_filter.mpr ⟨hstored, decide_eq_true ?_⟩)
  exact ⟨hwindow.1, hwindow.2, (of_decide_eq_true hin).2⟩

/-- In chronological order a window comes after its historical ones. -/
theorem chronological_split {windows : List Time} (hnodup : windows.Nodup) {a b : Time}
    (ha : a ∈ windows) (hb : b ∈ windows) (hab : a < b) : ∃ before between after,
      chronological windows = (before ++ a :: between) ++ b :: after ∧ a ∉ between ∧
        b ∉ after := by
  have hperm := chronological_perm windows
  have hnodup' : (chronological windows).Nodup := hperm.nodup_iff.mpr hnodup
  have hsorted : (chronological windows).Pairwise (· ≤ ·) := List.pairwise_insertionSort _ _
  obtain ⟨front, after, hsplit⟩ := List.append_of_mem (hperm.mem_iff.mpr hb)
  have ha' := hperm.mem_iff.mpr ha
  rw [hsplit] at hsorted hnodup' ha'
  have hafter : ∀ w ∈ after, b ≤ w := (List.pairwise_cons.mp (List.pairwise_append.mp hsorted).2.1).1
  have hfront : a ∈ front := by
    rcases List.mem_append.mp ha' with hfront | hrest
    · exact hfront
    · rcases List.mem_cons.mp hrest with rfl | hrest
      · exact absurd hab (lt_irrefl _)
      · exact absurd (hafter a hrest) (not_le.mpr hab)
  obtain ⟨before, between, rfl⟩ := List.append_of_mem hfront
  obtain ⟨hnodupFront, hnodupRest, -⟩ := List.nodup_append.mp hnodup'
  exact ⟨before, between, after, hsplit,
    (List.nodup_cons.mp (List.nodup_append.mp hnodupFront).2.1).1,
    (List.nodup_cons.mp hnodupRest).1⟩

/-- When a window is one to four weeks before another, the later one taken first does not see
the success rate of the earlier one. -/
theorem not_orderIndependent {since : Time} (late : LateEvents since) {a b : Time}
    (ha : a ∈ affectedWindows late.events) (hb : b ∈ affectedWindows late.events)
    (h : WeeksApart a b) : ¬ OrderIndependent late := by
  intro hindependent
  obtain ⟨store, hlate, hsnapshots, known, hknown, hstart, hcaptured, hpipeline⟩ :=
    late.exists_store ha
  let iterate (windows : List Time) : List Time :=
    if b ∈ windows then b :: windows.erase b else windows
  have hiterate : ∀ windows, (iterate windows).Perm windows := by
    intro windows
    by_cases hmem : b ∈ windows
    · simp only [iterate, if_pos hmem]
      exact (List.perm_cons_erase hmem).symm
    · simp only [iterate, if_neg hmem]
      exact .refl _
  have hsame := hindependent store hlate iterate hiterate
  unfold recalculateLateEvents at hsame
  rw [hlate, hsnapshots, show iterate (affectedWindows late.events) = _ from if_pos hb] at hsame
  have hnodup := nodup_affectedWindows late.events
  have hinB := mem_getEventsInWindow_of_affected hlate hb
  -- the later window first: no success rate is stored yet
  have hfirst : withBaseline [] (globalSnapshot store.events b) ∈ recalculateWindows store.events []
      (b :: (affectedWindows late.events).erase b) :=
    mem_recalculateWindows_turn [] [] hnodup.not_mem_erase (globalSnapshot_mem [] hinB)
  -- in chronological order the captured event of the earlier window has been counted
  obtain ⟨before, between, after, hsplit, hbetween, hafter⟩ :=
    chronological_split hnodup ha hb h.lt
  rw [hsplit] at hsame
  have hinA : known ∈ getEventsInWindow store.events a (a + Time.minutes 5) := by
    have hlength : (0 : ℤ) < Time.minutes 5 := by decide
    refine List.mem_filter.mpr ⟨hknown, decide_eq_true ⟨hstart.ge, ?_, hpipeline⟩⟩
    rw [hstart]
    exact lt_add_of_pos_right a hlength
  obtain ⟨r, hr⟩ := successRate_globalSnapshot hinA hcaptured
  have hearlier := mem_recalculateWindows_turn [] before hbetween
    (globalSnapshot_mem _ (List.ne_nil_of_mem hinA))
  have hlater := mem_recalculateWindows_turn [] (before ++ a :: between) hafter
    (globalSnapshot_mem _ hinB)
  have hbaseline := baseline_of_historical (g := globalSnapshot store.events b) h hearlier rfl rfl
    rfl rfl hr
  have hkeys := nodup_recalculateWindows store.events
    (show ([].map PaymentHealthSnapshot.identity).Nodup from List.nodup_nil)
    (b :: (affectedWindows late.events).erase b)
  have heq := List.inj_on_of_nodup_map hkeys hfirst (hsame.mem_iff.mpr hlater) rfl
  rw [← heq] at hbaseline
  cases hbaseline

/-- The order of the windows does not matter exactly when no two of them are one to four weeks
apart. -/
theorem recalculateLateEvents_orderIndependent_iff {since : Time} (late : LateEvents since) :
    OrderIndependent late ↔ ∀ a ∈ affectedWindows late.events,
      ∀ b ∈ affectedWindows late.events, ¬ WeeksApart a b := by
  constructor
  · exact fun hindependent a ha b hb h => not_orderIndependent late ha hb h hindependent
  · intro hapart store hlate iterate hiterate
    unfold recalculateLateEvents
    rw [hlate]
    have hperm : (iterate (affectedWindows late.events)).Perm (affectedWindows late.events) :=
      hiterate _
    refine recalculateWindows_perm (hperm.trans (chronological_perm _).symm)
      (hperm.nodup_iff.mpr (nodup_affectedWindows _)) ?_ store.snapshotKeys
    intro a ha b hb
    exact hapart a (hperm.mem_iff.mp ha) b (hperm.mem_iff.mp hb)

/-! ## An order that matters -/

namespace LateRecalculationExample

/-- A payment captured at an instant, ingested a second later than the last of the two. -/
def capturedAt (eventId : ℕ) (t : Time) : PaymentEvent where
  eventId := eventId
  sourceSystem := "razorpay"
  sourceEventId := if eventId = 1 then "evt_1" else "evt_2"
  paymentId := if eventId = 1 then "pay_1" else "pay_2"
  timestamp := t
  eventType := capturedEventType
  currency := "INR"
  amountMinorUnits := 10000
  paymentStatus := "captured"
  ingestedAt := Time.weeks 1 + Time.seconds 1

/-- Two captures a week apart, both ingested late. -/
def late : LateEvents (Time.weeks 1) where
  events := [capturedAt 1 0, capturedAt 2 (Time.weeks 1)]
  keys := by decide
  late := by decide

def store : AnalyticsStore where
  events := late.events
  snapshots := []
  eventKeys := late.keys
  snapshotKeys := List.nodup_nil

def latestFirst (windows : List Time) : List Time := (chronological windows).reverse

/-- The later window has a baseline only when the earlier one comes first. -/
theorem latestFirst_loses_baseline : ¬ OrderIndependent late := by
  intro h
  have hperm := h store (by decide) latestFirst
    fun windows => (List.reverse_perm _).trans (chronological_perm windows)
  have hchronological : ∃ s ∈ recalculateLateEvents chronological store (Time.weeks 1),
      s.windowStart = Time.weeks 1 ∧ s.baselineSuccessRate = some 1 := by decide +kernel
  have hlatest : ∀ s ∈ recalculateLateEvents latestFirst store (Time.weeks 1),
      s.windowStart = Time.weeks 1 → s.baselineSuccessRate = none := by decide +kernel
  obtain ⟨s, hs, hstart, hbaseline⟩ := hchronological
  rw [hlatest s (hperm.mem_iff.mpr hs) hstart] at hbaseline
  cases hbaseline

end LateRecalculationExample

end RevenueRecovery
