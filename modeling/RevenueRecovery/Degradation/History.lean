import Mathlib.Data.List.Induction
import RevenueRecovery.Degradation.Service
import RevenueRecovery.Prediction.Features

/-!
# Stage 3: the history of a segment

A reconciliation changes the stored episodes in place and appends one history row for
each upsert. As long as the reconciliations of a segment carry increasing timestamps, the
rows of the newest one tell which episode is active: a reconciliation that writes no row
found no episode and left none. The query of Stage 5 then returns, for any past time, the
episode that was active after the last call up to it (`activeEpisodeContext_asOf`).

## Main definitions
* `storedActiveEpisode`, `activeContext` : the active episode of a segment.
* `HistoryTracks` : the newest rows of the history tell which episode is active.
-/
namespace RevenueRecovery

/-! ## The active episode -/

/-- The episode is stored for the segment and active. -/
def IsActive (tables : AnalyticsTables) (dim val : String) (ep : DegradationEpisode) : Prop :=
  ep ∈ getEpisodesForSegment tables.episodes dim val ∧ ep.status = .active

/-- The active episode of a segment; there is at most one. -/
def storedActiveEpisode (tables : AnalyticsTables) (dim val : String) :
    Option DegradationEpisode :=
  (getEpisodesForSegment tables.episodes dim val).find? fun ep => ep.status = .active

/-- What the degradation context of a payment names of an episode. -/
def DegradationEpisode.context (ep : DegradationEpisode) : EpisodeId × Time × Severity :=
  (ep.episodeId, ep.startedAtWindow, ep.severity)

def EpisodeStateHistory.context (h : EpisodeStateHistory) : EpisodeId × Time × Severity :=
  (h.episodeId, h.effectiveStartWindow, h.severity)

@[simp] theorem historyRow_context (run : ℕ) (t : Time) (ep : DegradationEpisode) :
    (historyRow run t ep).context = ep.context := rfl

@[simp] theorem historyRow_reconciliationRunId (run : ℕ) (t : Time) (ep : DegradationEpisode) :
    (historyRow run t ep).reconciliationRunId = run := rfl

@[simp] theorem historyRow_evaluationTimestamp (run : ℕ) (t : Time) (ep : DegradationEpisode) :
    (historyRow run t ep).evaluationTimestamp = t := rfl

@[simp] theorem historyRow_status (run : ℕ) (t : Time) (ep : DegradationEpisode) :
    (historyRow run t ep).status = ep.status := rfl

theorem EpisodeStateHistory.ofSegment_iff {h : EpisodeStateHistory} {dim val : String} :
    h.ofSegment dim val ↔ h.segmentDimension.toUpper = dim ∧ h.segmentValue = val := by
  simp [EpisodeStateHistory.ofSegment]

section Active
variable {tables : AnalyticsTables} {dim val : String}

theorem ReplayInvariant.isActive_iff (h : ReplayInvariant tables) {ep : DegradationEpisode} :
    IsActive tables dim val ep ↔
      ep ∈ reconcileTimeline (latestSignals tables.signals dim val) ∧ ep.status = .active := by
  rw [h.current dim val ep]
  constructor
  · rintro ⟨hmem, hactive⟩
    exact ⟨⟨hmem, by rw [hactive]; decide⟩, hactive⟩
  · rintro ⟨⟨hmem, -⟩, hactive⟩
    exact ⟨hmem, hactive⟩

/-- A segment has at most one active episode. -/
theorem ReplayInvariant.isActive_unique (h : ReplayInvariant tables) {a b : DegradationEpisode}
    (ha : IsActive tables dim val a) (hb : IsActive tables dim val b) : a = b := by
  obtain ⟨ha, hactive⟩ := h.isActive_iff.mp ha
  obtain ⟨hb, hactive'⟩ := h.isActive_iff.mp hb
  exact reconcileTimeline_active_unique latestSignals_segment Table.latestPerGroup_sorted
    ha hactive hb hactive'

theorem storedActiveEpisode_eq_none : storedActiveEpisode tables dim val = none ↔
    ∀ ep, ¬IsActive tables dim val ep := by
  simp [storedActiveEpisode, IsActive]

theorem ReplayInvariant.storedActiveEpisode_eq_some (h : ReplayInvariant tables)
    {ep : DegradationEpisode} :
    storedActiveEpisode tables dim val = some ep ↔ IsActive tables dim val ep := by
  have hfound : ∀ ep', storedActiveEpisode tables dim val = some ep' →
      IsActive tables dim val ep' := fun ep' hep =>
    ⟨List.mem_of_find?_eq_some hep, by simpa using List.find?_some hep⟩
  constructor
  · exact hfound ep
  · intro hactive
    cases hstored : storedActiveEpisode tables dim val with
    | none => exact absurd hactive (storedActiveEpisode_eq_none.mp hstored ep)
    | some ep' => rw [h.isActive_unique hactive (hfound ep' hstored)]

/-- What the degradation context of a payment should name. -/
def activeContext (tables : AnalyticsTables) (dim val : String) :
    Option (EpisodeId × Time × Severity) :=
  (storedActiveEpisode tables dim val).map (·.context)

theorem ReplayInvariant.activeContext_eq_some (h : ReplayInvariant tables)
    {context : EpisodeId × Time × Severity} : activeContext tables dim val = some context ↔
      ∃ ep, IsActive tables dim val ep ∧ ep.context = context := by
  simp only [activeContext, Option.map_eq_some_iff, h.storedActiveEpisode_eq_some]

theorem activeContext_congr {tables' : AnalyticsTables}
    (h : tables'.episodes = tables.episodes) (dim val : String) :
    activeContext tables' dim val = activeContext tables dim val := by
  rw [activeContext, activeContext, storedActiveEpisode, storedActiveEpisode, h]

end Active

/-! ## The newest rows -/

/-- The row is one of the segment's with the latest timestamp. -/
structure Newest (history : List EpisodeStateHistory) (dim val : String)
    (last : EpisodeStateHistory) : Prop where
  mem : last ∈ history
  segment : last.ofSegment dim val
  latest : ∀ h ∈ history, h.ofSegment dim val → h.evaluationTimestamp ≤ last.evaluationTimestamp

/-- The active rows of the newest reconciliation of a segment are those of its active
episode; without any row there is none. The history names the dimension in upper case. -/
structure HistoryTracks (tables : AnalyticsTables) (dim val : String) : Prop where
  shown : ∀ last, Newest tables.history dim.toUpper val last → ∀ h ∈ tables.history,
    h.reconciliationRunId = last.reconciliationRunId → h.ofSegment dim.toUpper val →
    h.status = .active → ∃ ep, IsActive tables dim val ep ∧ h.context = ep.context
  recorded : ∀ last, Newest tables.history dim.toUpper val last → ∀ ep,
    IsActive tables dim val ep → ∃ h ∈ tables.history,
      h.reconciliationRunId = last.reconciliationRunId ∧ h.ofSegment dim.toUpper val ∧
      h.status = .active
  silent : (∀ h ∈ tables.history, ¬h.ofSegment dim.toUpper val) →
    ∀ ep, ¬IsActive tables dim val ep

theorem historyTracks_empty (dim val : String) : HistoryTracks {} dim val :=
  ⟨by simp, by rintro last ⟨hmem, -, -⟩; simp at hmem, by
    simp [IsActive, getEpisodesForSegment]⟩

/-- Only the history and the episodes matter. -/
theorem HistoryTracks.congr {tables tables' : AnalyticsTables} {dim val : String}
    (h : HistoryTracks tables dim val) (hhistory : tables'.history = tables.history)
    (hactive : ∀ ep, IsActive tables' dim val ep ↔ IsActive tables dim val ep) :
    HistoryTracks tables' dim val := by
  refine ⟨?_, ?_, ?_⟩ <;> rw [hhistory] <;> simp only [hactive]
  · exact h.shown
  · exact h.recorded
  · exact h.silent

/-! ## One reconciliation -/

section Store
variable {tables : AnalyticsTables} {new : List DegradationSignal} {dim val : String}

/-- The rows a reconciliation appends: of its segment, its run and its timestamp. -/
theorem storeReconciliation_history (h : ReplayInvariant tables)
    (signals : List DegradationSignal) (dim val : String) (t : Time) (run : ℕ) :
    ∃ rows, (storeReconciliation tables signals dim val t run).history = tables.history ++ rows ∧
      ∀ row ∈ rows, row.segmentDimension = dim ∧ row.segmentValue = val ∧
        row.reconciliationRunId = run ∧ row.evaluationTimestamp = t := by
  refine ⟨_, rfl, fun row hrow => ?_⟩
  obtain ⟨up, hup, rfl⟩ := List.mem_map.mp hrow
  have hof := (reconciledUpserts_spec h.table (reconcile_latestSignals signals dim val)).1 up hup
  exact ⟨hof.dimension_eq, hof.value_eq, rfl, rfl⟩

theorem isActive_store_other (h : ReplayInvariant tables) {dim' val' : String}
    (hnew : ∀ s ∈ new, s.segmentDimension = dim ∧ s.segmentValue = val)
    (hne : ¬(dim' = dim ∧ val' = val)) (t : Time) (run : ℕ) (ep : DegradationEpisode) :
    IsActive (storeReconciliation tables (tables.signals ++ new) dim val t run) dim' val' ep ↔
      IsActive tables dim' val' ep := by
  have hsignals : (storeReconciliation tables (tables.signals ++ new) dim val t run).signals =
    tables.signals ++ new := rfl
  rw [(h.store hnew t run).isActive_iff, h.isActive_iff, hsignals, latestSignals,
    segmentSignals_append_other hnew hne, ← latestSignals]

/-- The rows of a reconciliation that tell the active episode keep the history tracked, if
they are newer than all of it or the active episode is as it was: then the newest rows are
these, or still tell the same episode. -/
theorem HistoryTracks.append {tables' : AnalyticsTables} {ups : List DegradationEpisode}
    {t : Time} {run : ℕ} (htracks : HistoryTracks tables dim val) (hups : ups ≠ [])
    (hhistory : tables'.history = tables.history ++ ups.map (historyRow run t))
    (hof : ∀ up ∈ ups, (historyRow run t up).ofSegment dim.toUpper val)
    (hrun : ∀ row ∈ tables.history, row.reconciliationRunId ≠ run)
    (hactive : ∀ ep, IsActive tables' dim val ep ↔ ep ∈ ups ∧ ep.status = .active)
    (hsame : ∀ row ∈ tables.history, row.ofSegment dim.toUpper val → t ≤ row.evaluationTimestamp →
      ∀ context, (∃ ep, IsActive tables' dim val ep ∧ ep.context = context) ↔
        ∃ ep, IsActive tables dim val ep ∧ ep.context = context) :
    HistoryTracks tables' dim val := by
  have hmem : ∀ row, row ∈ tables'.history ↔
      row ∈ tables.history ∨ ∃ up ∈ ups, historyRow run t up = row := fun row => by
    rw [hhistory, List.mem_append, List.mem_map]
  obtain ⟨up, hup⟩ := List.exists_mem_of_ne_nil _ hups
  -- the newest row is of this run, or an old one that is not older than this run
  have hlast : ∀ last, Newest tables'.history dim.toUpper val last →
      last.reconciliationRunId = run ∨
        Newest tables.history dim.toUpper val last ∧ t ≤ last.evaluationTimestamp := by
    rintro last ⟨hlastmem, hsegment, hlatest⟩
    rcases (hmem last).mp hlastmem with hold | ⟨_, -, rfl⟩
    · exact .inr ⟨⟨hold, hsegment, fun row hrow => hlatest row ((hmem row).mpr (.inl hrow))⟩,
        hlatest _ ((hmem _).mpr (.inr ⟨up, hup, rfl⟩)) (hof up hup)⟩
    · exact .inl rfl
  refine ⟨fun last hnewest row hrow hid hsegment hstatus => ?_,
    fun last hnewest ep hep => ?_, fun hsilent => ?_⟩
  · rcases hlast last hnewest with hown | ⟨hold, hle⟩
    · rcases (hmem row).mp hrow with hrow | ⟨ep, hep, rfl⟩
      · exact absurd (hid.trans hown) (hrun row hrow)
      · exact ⟨ep, (hactive ep).mpr ⟨hep, hstatus⟩, rfl⟩
    · rcases (hmem row).mp hrow with hrow | ⟨ep, hep, rfl⟩
      · obtain ⟨ep, hep, hcontext⟩ := htracks.shown last hold row hrow hid hsegment hstatus
        obtain ⟨ep', hep', hcontext'⟩ :=
          (hsame last hold.mem hold.segment hle _).mpr ⟨ep, hep, rfl⟩
        exact ⟨ep', hep', hcontext.trans hcontext'.symm⟩
      · exact absurd hid.symm (hrun last hold.mem)
  · rcases hlast last hnewest with hown | ⟨hold, hle⟩
    · obtain ⟨hep, hstatus⟩ := (hactive ep).mp hep
      exact ⟨historyRow run t ep, (hmem _).mpr (.inr ⟨ep, hep, rfl⟩), hown.symm, hof ep hep,
        hstatus⟩
    · obtain ⟨ep', hep', -⟩ := (hsame last hold.mem hold.segment hle _).mp ⟨ep, hep, rfl⟩
      obtain ⟨row, hrow, hfacts⟩ := htracks.recorded last hold ep' hep'
      exact ⟨row, (hmem row).mpr (.inl hrow), hfacts⟩
  · exact absurd (hof up hup) (hsilent _ ((hmem _).mpr (.inr ⟨up, hup, rfl⟩)))

/-- A reconciliation keeps the history of its segment tracked when it is newer than all of it
or leaves the active episode as it was. -/
theorem HistoryTracks.store {t : Time} {run : ℕ} (htracks : HistoryTracks tables dim val)
    (h : ReplayInvariant tables)
    (hnew : ∀ s ∈ new, s.segmentDimension = dim ∧ s.segmentValue = val)
    (hrun : ∀ row ∈ tables.history, row.reconciliationRunId ≠ run)
    (hkept : ∀ row ∈ tables.history, row.ofSegment dim.toUpper val → t ≤ row.evaluationTimestamp →
      activeContext (storeReconciliation tables (tables.signals ++ new) dim val t run) dim val =
        activeContext tables dim val) :
    HistoryTracks (storeReconciliation tables (tables.signals ++ new) dim val t run) dim val := by
  have hv := reconcile_latestSignals (tables.signals ++ new) dim val
  have hseg := (reconciledUpserts_spec h.table hv).1
  have hstore := h.store hnew t run
  have hactive : ∀ ep, IsActive (storeReconciliation tables (tables.signals ++ new) dim val t run)
      dim val ep ↔ ep ∈ reconcileTimeline (latestSignals (tables.signals ++ new) dim val) ∧
        ep.status = .active := fun ep => hstore.isActive_iff
  have hhistory : (storeReconciliation tables (tables.signals ++ new) dim val t run).history =
      tables.history ++ (reconciledUpserts tables.episodes
        (reconcileTimeline (latestSignals (tables.signals ++ new) dim val)) dim val).map
          (historyRow run t) := rfl
  by_cases hnone : reconciledUpserts tables.episodes
      (reconcileTimeline (latestSignals (tables.signals ++ new) dim val)) dim val = []
  · -- no episode is valid, and none was stored that is not invalidated
    obtain ⟨hstale, hvalid⟩ := List.append_eq_nil_iff.mp hnone
    refine htracks.congr (by rw [hhistory, hnone]; simp) fun ep => ?_
    rw [hactive ep, hvalid]
    refine iff_of_false (fun hep => absurd hep.1 List.not_mem_nil) fun hep => ?_
    have hmem : ep ∈ staleEpisodes tables.episodes [] dim val := by
      simp [staleEpisodes, hep.1, hep.2]
    rw [hvalid, List.map_eq_nil_iff] at hstale
    rw [hstale] at hmem
    exact absurd hmem List.not_mem_nil
  · refine htracks.append hnone hhistory (fun up hup => ?_) hrun (fun ep => ?_)
      fun row hrow hsegment hle context => ?_
    · rw [EpisodeStateHistory.ofSegment_iff]
      exact ⟨congrArg String.toUpper (hseg up hup).dimension_eq, (hseg up hup).value_eq⟩
    · -- the invalidated episodes are not active
      rw [hactive ep, reconciledUpserts, List.mem_append, List.mem_map]
      refine ⟨fun hep => ⟨.inr hep.1, hep.2⟩, ?_⟩
      rintro ⟨⟨old, -, rfl⟩ | hep, hstatus⟩
      · cases hstatus
      · exact ⟨hep, hstatus⟩
    · rw [← hstore.activeContext_eq_some, ← h.activeContext_eq_some,
        hkept row hrow hsegment hle]

/-- A reconciliation of another segment keeps the history of this one. -/
theorem HistoryTracks.store_other {dim' val' : String} (htracks : HistoryTracks tables dim' val')
    (h : ReplayInvariant tables)
    (hnew : ∀ s ∈ new, s.segmentDimension = dim ∧ s.segmentValue = val)
    (hne : ¬(dim.toUpper = dim'.toUpper ∧ val = val')) (t : Time) (run : ℕ) :
    HistoryTracks (storeReconciliation tables (tables.signals ++ new) dim val t run) dim' val' := by
  have hother : ¬(dim' = dim ∧ val' = val) := by
    rintro ⟨rfl, rfl⟩
    exact hne ⟨rfl, rfl⟩
  have hactive := isActive_store_other h hnew hother t run
  obtain ⟨rows, hhistory, hrows⟩ :=
    storeReconciliation_history h (tables.signals ++ new) dim val t run
  generalize storeReconciliation tables (tables.signals ++ new) dim val t run = tables'
    at hactive hhistory
  have hold : ∀ row ∈ tables'.history, row.ofSegment dim'.toUpper val' → row ∈ tables.history := by
    intro row hrow hsegment
    rw [hhistory] at hrow
    rcases List.mem_append.mp hrow with hold | hrow
    · exact hold
    · obtain ⟨hdim, hval, -, -⟩ := hrows row hrow
      rw [EpisodeStateHistory.ofSegment_iff, hdim, hval] at hsegment
      exact absurd hsegment hne
  have hmem : ∀ row ∈ tables.history, row ∈ tables'.history := by
    intro row hrow
    rw [hhistory]
    exact List.mem_append_left _ hrow
  have hnewest : ∀ last, Newest tables'.history dim'.toUpper val' last →
      Newest tables.history dim'.toUpper val' last := fun last hlast =>
    ⟨hold last hlast.mem hlast.segment, hlast.segment,
      fun row hrow => hlast.latest row (hmem row hrow)⟩
  refine ⟨?_, ?_, ?_⟩
  · intro last hlast row hrow hsame hsegment hstatus
    obtain ⟨ep, hep, hcontext⟩ := htracks.shown last (hnewest last hlast) row
      (hold row hrow hsegment) hsame hsegment hstatus
    exact ⟨ep, (hactive ep).mpr hep, hcontext⟩
  · intro last hlast ep hep
    obtain ⟨row, hrow, hfacts⟩ :=
      htracks.recorded last (hnewest last hlast) ep ((hactive ep).mp hep)
    exact ⟨row, hmem row hrow, hfacts⟩
  · intro hsilent ep hep
    exact htracks.silent (fun row hrow => hsilent row (hmem row hrow)) ep ((hactive ep).mp hep)

end Store

/-! ## The query -/

/-- The query at a time no known row of the segment exceeds, when rows were appended since:
those of the segment are later and of other runs. -/
theorem HistoryTracks.query {tables : AnalyticsTables} {dim val : String} {t : Time} {r : Reads}
    {later : List EpisodeStateHistory} (htracks : HistoryTracks tables dim val)
    (h : ReplayInvariant tables)
    (hreads : ∀ k, (r.db k).analytics.history = tables.history ++ later)
    (hknown : ∀ row ∈ tables.history, row.ofSegment dim.toUpper val →
      row.evaluationTimestamp ≤ t)
    (hlater : ∀ row ∈ later, row.ofSegment dim.toUpper val → t < row.evaluationTimestamp ∧
      ∀ old ∈ tables.history, row.reconciliationRunId ≠ old.reconciliationRunId) :
    (getActiveEpisodeContext r dim.toUpper val t).map (·.context) =
      (storedActiveEpisode tables dim val).map (·.context) := by
  have hmem : ∀ k p row, row ∈ r.rows k (·.analytics.history) p ↔
      (row ∈ tables.history ∨ row ∈ later) ∧ p row = true := by
    intro k p row
    rw [Reads.mem_rows, hreads k, List.mem_append]
  have hold : ∀ row, row ∈ tables.history ∨ row ∈ later → row.ofSegment dim.toUpper val →
      row.evaluationTimestamp ≤ t → row ∈ tables.history := by
    rintro row (hrow | hrow) hsegment hle
    · exact hrow
    · exact absurd hle (not_le.mpr (hlater row hrow hsegment).1)
  unfold getActiveEpisodeContext
  cases hlast : Table.latestBy (·.evaluationTimestamp) (r.rows 0 (·.analytics.history) fun row =>
      row.ofSegment dim.toUpper val && row.evaluationTimestamp ≤ t) with
  | none =>
      have hnone : storedActiveEpisode tables dim val = none := by
        rw [storedActiveEpisode_eq_none]
        refine htracks.silent fun row hrow hsegment => ?_
        refine absurd ((hmem 0 _ row).mpr ⟨.inl hrow, ?_⟩)
          (List.eq_nil_iff_forall_not_mem.mp (Table.latestBy_eq_none.mp hlast) row)
        simp [hsegment, hknown row hrow hsegment]
      rw [hnone]
      rfl
  | some last =>
      have hselected := (hmem 0 _ last).mp (Table.latestBy_mem hlast)
      simp only [Bool.and_eq_true, decide_eq_true_eq] at hselected
      obtain ⟨hlastmem, hlastseg, hlastle⟩ := hselected
      have hnewest : Newest tables.history dim.toUpper val last := by
        refine ⟨hold last hlastmem hlastseg hlastle, hlastseg, fun row hrow hsegment => ?_⟩
        refine Table.latestBy_max hlast ((hmem 0 _ row).mpr ⟨.inl hrow, ?_⟩)
        simp [hsegment, hknown row hrow hsegment]
      have hrun : ∀ row, row ∈ tables.history ∨ row ∈ later → row.ofSegment dim.toUpper val →
          row.reconciliationRunId = last.reconciliationRunId → row ∈ tables.history := by
        rintro row (hrow | hrow) hsegment hsame
        · exact hrow
        · exact absurd hsame ((hlater row hrow hsegment).2 last hnewest.mem)
      dsimp only
      cases hhead : (r.rows 1 (·.analytics.history) fun row =>
          row.reconciliationRunId == last.reconciliationRunId && row.ofSegment dim.toUpper val &&
            row.status == .active).head? with
      | none =>
          have hnone : storedActiveEpisode tables dim val = none := by
            rw [storedActiveEpisode_eq_none]
            intro ep hep
            obtain ⟨row, hrow, hsame, hsegment, hstatus⟩ := htracks.recorded last hnewest ep hep
            refine absurd ((hmem 1 _ row).mpr ⟨.inl hrow, ?_⟩)
              (List.eq_nil_iff_forall_not_mem.mp (List.head?_eq_none_iff.mp hhead) row)
            simp [hsame, hsegment, hstatus]
          rw [hnone]
          rfl
      | some row =>
          have hsel := (hmem 1 _ row).mp (List.mem_of_head? hhead)
          simp only [Bool.and_eq_true, beq_iff_eq] at hsel
          obtain ⟨hrow, ⟨hsame, hsegment⟩, hstatus⟩ := hsel
          obtain ⟨ep, hep, hcontext⟩ :=
            htracks.shown last hnewest row (hrun row hrow hsegment hsame) hsame hsegment hstatus
          rw [h.storedActiveEpisode_eq_some.mpr hep, Option.map_some, Option.map_some, hcontext]

/-! ## Runs of calls -/

/-- The calls append rows that carry the run, the timestamp and the segment of one of them. -/
theorem history_foldl {tables : AnalyticsTables} (h : ReplayInvariant tables)
    (calls : List DegradationCall) :
    ∃ rows, (calls.foldl processCall tables).history = tables.history ++ rows ∧
      ∀ row ∈ rows, ∃ call ∈ calls, row.reconciliationRunId = call.reconciliationRunId ∧
        row.evaluationTimestamp = call.evaluationTimestamp ∧
        call.onSegment row.segmentDimension row.segmentValue := by
  induction calls generalizing tables with
  | nil => exact ⟨[], by simp, by simp⟩
  | cons call calls ih =>
      obtain ⟨rows, hrows, horigin⟩ := ih (h.processCall call)
      have hlater : ∀ row ∈ rows, ∃ c ∈ call :: calls,
          row.reconciliationRunId = c.reconciliationRunId ∧
            row.evaluationTimestamp = c.evaluationTimestamp ∧
            c.onSegment row.segmentDimension row.segmentValue := by
        intro row hrow
        obtain ⟨c, hc, hfacts⟩ := horigin row hrow
        exact ⟨c, List.mem_cons_of_mem _ hc, hfacts⟩
      rcases processCall_cases tables call with heq | ⟨dim, val, new, hcall, -, heq⟩
      · exact ⟨rows, by rw [List.foldl_cons, hrows, heq], hlater⟩
      · obtain ⟨own, hown, hfacts⟩ := storeReconciliation_history h (tables.signals ++ new) dim val
          call.evaluationTimestamp call.reconciliationRunId
        refine ⟨own ++ rows, by rw [List.foldl_cons, hrows, heq, hown, List.append_assoc], ?_⟩
        intro row hrow
        rcases List.mem_append.mp hrow with hrow | hrow
        · obtain ⟨hdim, hval, hrun, htime⟩ := hfacts row hrow
          exact ⟨call, List.mem_cons_self, hrun, htime, by rw [hdim, hval]; exact hcall⟩
        · exact hlater row hrow

theorem history_processCalls (calls : List DegradationCall) :
    ∀ row ∈ (processCalls calls).history, ∃ call ∈ calls,
      row.reconciliationRunId = call.reconciliationRunId ∧
        row.evaluationTimestamp = call.evaluationTimestamp ∧
        call.onSegment row.segmentDimension row.segmentValue := by
  obtain ⟨rows, hrows, horigin⟩ := history_foldl replayInvariant_empty calls
  intro row hrow
  rw [processCalls, hrows] at hrow
  exact horigin row (by simpa using hrow)

/-- No other segment of the calls has the same dimension in upper case. -/
def SpelledAlike (calls : List DegradationCall) (dim : String) : Prop :=
  ∀ call ∈ calls, ∀ s ∈ call.snapshots,
    s.segmentDimension.toUpper = dim.toUpper → s.segmentDimension = dim

theorem SpelledAlike.onSegment {calls : List DegradationCall} {dim val : String}
    (h : SpelledAlike calls dim) {call : DegradationCall} (hcall : call ∈ calls)
    {row : EpisodeStateHistory} (hon : call.onSegment row.segmentDimension row.segmentValue)
    (hrow : row.ofSegment dim.toUpper val) : call.onSegment dim val := by
  obtain ⟨hupper, hval⟩ := EpisodeStateHistory.ofSegment_iff.mp hrow
  obtain ⟨s, hs, hsegment⟩ := List.any_eq_true.mp hon
  simp only [decide_eq_true_eq] at hsegment
  have hdim := h call hcall s hs (by rw [hsegment.1, hupper])
  rw [← hval, ← hdim, hsegment.1]
  exact hon

/-- Calls of increasing timestamps on a segment keep its history tracked. -/
theorem historyTracks_processCalls {calls : List DegradationCall} {dim val : String}
    (hspelled : SpelledAlike calls dim) (hruns : (calls.map (·.reconciliationRunId)).Nodup)
    (hincreasing : (calls.filter (·.onSegment dim val)).Pairwise fun a b =>
      a.evaluationTimestamp < b.evaluationTimestamp) :
    HistoryTracks (processCalls calls) dim val := by
  induction calls using List.reverseRecOn with
  | nil => exact historyTracks_empty dim val
  | append_singleton calls call ih =>
      have hspelled' : SpelledAlike calls dim := fun c hc =>
        hspelled c (List.mem_append_left _ hc)
      rw [List.map_append, List.map_singleton, List.nodup_append] at hruns
      obtain ⟨hruns', -, hfresh⟩ := hruns
      rw [List.filter_append, List.pairwise_append] at hincreasing
      obtain ⟨hincreasing', -, hlater⟩ := hincreasing
      have htracks := ih hspelled' hruns' hincreasing'
      have hinv : ReplayInvariant (processCalls calls) :=
        replayInvariant_foldl replayInvariant_empty calls
      have horigin := history_processCalls calls
      rw [processCalls, List.foldl_append, List.foldl_cons, List.foldl_nil, ← processCalls]
      rcases processCall_cases (processCalls calls) call with heq | ⟨d, v, new, hcall, hnew, heq⟩
      · rw [heq]
        exact htracks
      · rw [heq]
        by_cases hsame : d.toUpper = dim.toUpper ∧ v = val
        · obtain ⟨s, hs, hsegment⟩ := List.any_eq_true.mp hcall
          simp only [decide_eq_true_eq] at hsegment
          have hdim : d = dim := by
            rw [← hsegment.1]
            exact hspelled call (by simp) s hs (by rw [hsegment.1, hsame.1])
          obtain ⟨-, rfl⟩ := hsame
          subst hdim
          refine htracks.store hinv hnew ?_ ?_
          · intro row hrow hrun
            obtain ⟨c, hc, hid, -, -⟩ := horigin row hrow
            exact hfresh _ (List.mem_map_of_mem hc) _ (by simp) (hid.symm.trans hrun)
          · intro row hrow hsegment hle
            obtain ⟨c, hc, -, htime, hon⟩ := horigin row hrow
            rw [htime] at hle
            refine absurd hle (not_le.mpr (hlater c (List.mem_filter.mpr ⟨hc, ?_⟩) call
              (by simp [hcall])))
            exact hspelled'.onSegment hc hon hsegment
        · exact htracks.store_other hinv hnew hsame _ _

/-- Point-in-time history: when the calls on a segment carry increasing timestamps, the
query returns, for any time `t`, the episode that was active after the last call up to
`t`, whatever the order of the calls' windows and whatever calls follow. -/
theorem activeEpisodeContext_asOf (before after : List DegradationCall)
    (dim val query : String) (t : Time) (r : Reads) (hquery : query.toUpper = dim.toUpper)
    (hspelled : SpelledAlike (before ++ after) dim)
    (hruns : ((before ++ after).map (·.reconciliationRunId)).Nodup)
    (hincreasing : ((before ++ after).filter (·.onSegment dim val)).Pairwise fun a b =>
      a.evaluationTimestamp < b.evaluationTimestamp)
    (hbefore : ∀ call ∈ before, call.onSegment dim val → call.evaluationTimestamp ≤ t)
    (hafter : ∀ call ∈ after, call.onSegment dim val → t < call.evaluationTimestamp)
    (hreads : ∀ k, (r.db k).analytics = processCalls (before ++ after)) :
    (getActiveEpisodeContext r query.toUpper val t).map (·.context) =
        (storedActiveEpisode (processCalls before) dim val).map (·.context) ∧
      ∀ ep, storedActiveEpisode (processCalls before) dim val = some ep ↔
        IsActive (processCalls before) dim val ep := by
  have hinv : ReplayInvariant (processCalls before) :=
    replayInvariant_foldl replayInvariant_empty before
  refine ⟨?_, fun ep => hinv.storedActiveEpisode_eq_some⟩
  have hspelled' : SpelledAlike before dim := fun call hcall =>
    hspelled call (List.mem_append_left _ hcall)
  have hspelled'' : SpelledAlike after dim := fun call hcall =>
    hspelled call (List.mem_append_right _ hcall)
  rw [List.map_append, List.nodup_append] at hruns
  obtain ⟨hruns', -, hfresh⟩ := hruns
  rw [List.filter_append, List.pairwise_append] at hincreasing
  have htracks := historyTracks_processCalls hspelled' hruns' hincreasing.1
  have horigin := history_processCalls before
  obtain ⟨later, hlater, horigin'⟩ := history_foldl hinv after
  have hstored : ∀ k, (r.db k).analytics.history = (processCalls before).history ++ later := by
    intro k
    rw [hreads k, processCalls, List.foldl_append, ← processCalls, hlater]
  rw [hquery]
  refine htracks.query hinv hstored ?_ ?_
  · intro row hrow hsegment
    obtain ⟨call, hcall, -, htime, hon⟩ := horigin row hrow
    rw [htime]
    exact hbefore call hcall (hspelled'.onSegment hcall hon hsegment)
  · intro row hrow hsegment
    obtain ⟨call, hcall, hrun, htime, hon⟩ := horigin' row hrow
    refine ⟨?_, fun old hold => ?_⟩
    · rw [htime]
      exact hafter call hcall (hspelled''.onSegment hcall hon hsegment)
    · obtain ⟨call', hcall', hrun', -, -⟩ := horigin old hold
      rw [hrun, hrun']
      exact (hfresh _ (List.mem_map_of_mem hcall') _ (List.mem_map_of_mem hcall)).symm

/-! ### An outage and its recovery -/

namespace HistoryExample

/-- The five-minute window `k`, of 50 payments. -/
def snapshot (k : ℤ) (successRate : ℚ) : PaymentHealthSnapshot :=
  { windowStart := Time.minutes (5 * k), windowEnd := Time.minutes (5 * k + 5),
    segmentDimension := "currency", segmentValue := "INR", transactionCount := 50,
    successfulTransactionCount := 0, failedTransactionCount := 50,
    successRate := some successRate, failureRate := some (1 - successRate),
    totalGmvMinorUnits := 0, successfulGmvMinorUnits := 0, failedGmvMinorUnits := 0,
    baselineSuccessRate := some 1, insufficientVolume := false }

/-- Three windows without success. -/
def outage : DegradationCall :=
  { snapshots := [snapshot 0 0, snapshot 1 0, snapshot 2 0]
    evaluationTimestamp := Time.minutes 15
    reconciliationRunId := 1
    oneSegment := by simp [snapshot] }

/-- Two normal windows. -/
def recovery : DegradationCall :=
  { snapshots := [snapshot 3 1, snapshot 4 1]
    evaluationTimestamp := Time.minutes 25
    reconciliationRunId := 2
    oneSegment := by simp [snapshot] }

end HistoryExample

open HistoryExample in
/-- Before the recovery the outage is active, also when asked after it. -/
theorem activeEpisodeContext_asOf_outage :
    (getActiveEpisodeContext (.all { analytics := processCalls [outage, recovery] })
        "currency".toUpper "INR" (Time.minutes 20)).map (·.context) =
      some (⟨"currency", "INR", 0⟩, 0, .critical) := by
  have hspelled : SpelledAlike ([outage] ++ [recovery]) "currency" := by
    simp [SpelledAlike, outage, recovery, snapshot]
  have hasOf := activeEpisodeContext_asOf [outage] [recovery] "currency" "INR" "currency"
    (Time.minutes 20) (.all { analytics := processCalls [outage, recovery] }) rfl hspelled
    (by decide) (by decide) (by decide) (by decide) (fun _ => rfl)
  rw [hasOf.1]
  decide +kernel

end RevenueRecovery
