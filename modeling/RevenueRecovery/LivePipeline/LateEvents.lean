import RevenueRecovery.Degradation.History
import RevenueRecovery.LivePipeline.Run

/-!
# Late events

Each run of the live pipeline stamps its reconciliations with the provider timestamp of
its event, and the degradation context of a payment is read from the latest stamp. It is
that of the stored active episode as long as no late event changes which episode is active
(`activeEpisodeContext_current`). A late event's reconciliation is stamped before those of
earlier runs, which shadow it (`activeEpisodeContext_shadowed`).

## Main definitions
* `stagesCommits` : what the run of an event commits in Stages 2-4, one after the other.
* `PipelineRun`, `pipelineStep` : one run after another, each to its end.
* `KeepsContext` : a run with a late event does not change which episode is active.
* `CurrentContext` : the context read for any segment is that of its active episode.
-/
namespace RevenueRecovery

/-! ## Sequential runs -/

/-- What Stage 4 commits for the episodes that were active, and the pipeline at its end. An
evaluation that stores nothing commits nothing. -/
def rcaCommits (events : List PaymentEvent) (now : Time) :
    List DegradationEpisode → AnalyticsTables → List AnalyticsTables
  | [], tables => [tables]
  | ep :: episodes, tables =>
      match evaluateEpisode events tables ep now with
      | .error _ => []
      | .ok evaluated =>
          if evaluated.evaluations.length = tables.evaluations.length then
            rcaCommits events now episodes evaluated
          else evaluated :: rcaCommits events now episodes evaluated

/-- Stage 2 in the run of an event. -/
def saveWindow (db : Database) (e : PaymentEvent) : AnalyticsTables :=
  let windowStart := Time.windowStart e.timestamp
  { db.analytics with
    snapshots := calculateAndSaveWindow db.events db.analytics.snapshots windowStart
      (windowStart + Time.minutes 5) }

/-- What the run of an event commits in Stages 2-4: the snapshots of Stage 2, and then
Stage 3 with the evaluations of Stage 4. A stage that raises ends the run. -/
def stagesCommits (order : ℕ → ℕ → ℕ) (db : Database) (e : PaymentEvent) (now : Time) :
    List AnalyticsTables :=
  saveWindow db e ::
    match detectDegradation (order 0) (saveWindow db e) (Time.windowStart e.timestamp)
        e.timestamp with
    | .error _ => []
    | .ok detected => rcaCommits db.events now
        (Table.scan (order 1) (detected.episodes.filter fun ep => ep.status = .active)) detected

/-- The run of a newly ingested event that is not of PayPal. It may fail, for any reason,
after so many of the commits of Stages 2-4; later stages do not write their tables. -/
structure PipelineRun where
  event : PaymentEvent
  notPaypal : event.isPaypal = false
  order : ℕ → ℕ → ℕ := fun _ i => i
  now : Time := 0
  failsAfter : Option ℕ := none

/-- Ingest the event and make its run. -/
def pipelineStep (db : Database) (run : PipelineRun) : Database :=
  let db := db.apply (.insertEvent run.event)
  let commits := stagesCommits run.order db run.event run.now
  db.apply (.setAnalytics ((run.failsAfter.elim commits commits.take).getLastD db.analytics))

/-- The store after a sequence of runs, each made after the earlier ones ended. -/
def afterRuns (runs : List PipelineRun) : Database := runs.foldl pipelineStep {}

/-- The runs as actions, each always enabled. -/
def sequentialStep (db : Database) (run : PipelineRun) : Option Database :=
  some (pipelineStep db run)

theorem exec_sequentialStep (db : Database) (runs : List PipelineRun) :
    Run.exec sequentialStep db runs = some (runs.foldl pipelineStep db) := by
  induction runs generalizing db with
  | nil => rfl
  | cons run runs ih =>
      rw [Run.exec_cons, sequentialStep, Option.bind_some, ih]
      rfl

/-- Where a segment has a history row that is stamped as late as the event, the run leaves the
segment's active episode, its start and its severity as they are. -/
def KeepsContext (db : Database) (run : PipelineRun) : Prop :=
  ∀ row ∈ db.analytics.history, run.event.timestamp ≤ row.evaluationTimestamp →
    activeContext (pipelineStep db run).analytics row.segmentDimension row.segmentValue =
      activeContext db.analytics row.segmentDimension row.segmentValue

instance (db : Database) (run : PipelineRun) : Decidable (KeepsContext db run) :=
  inferInstanceAs (Decidable (∀ row ∈ db.analytics.history, _ → _))

/-- A run that fails before its first commit keeps every context. -/
theorem keepsContext_of_failsAfter {db : Database} {run : PipelineRun}
    (h : run.failsAfter = some 0) : KeepsContext db run := by
  intro row _ _
  have hstep : (pipelineStep db run).analytics = db.analytics := by
    simp [pipelineStep, h, Database.apply]
  rw [hstep]

/-- At a time no event exceeds, the context read for a segment of Stage 2 is that of its
stored active episode, and there is none without such an episode. -/
def CurrentContext (db : Database) : Prop :=
  ∀ dim ∈ healthDimensions, ∀ val t, ∀ r : Reads, (∀ k, r.db k = db) →
    (∀ e ∈ db.events, e.timestamp ≤ t ∧ e.ingestedAt ≤ t) → ∀ context,
      (getActiveEpisodeContext r dim.toUpper val t).map (·.context) = some context ↔
        ∃ ep, IsActive db.analytics dim val ep ∧ ep.context = context

/-! ## What a run keeps -/

/-- What holds of the analytics tables between runs that keep the context. -/
structure Tracked (tables : AnalyticsTables) : Prop where
  replay : ReplayInvariant tables
  snapshots : ∀ s ∈ tables.snapshots, s.segmentDimension ∈ healthDimensions
  history : ∀ row ∈ tables.history, row.segmentDimension ∈ healthDimensions
  tracks : ∀ dim ∈ healthDimensions, ∀ val, HistoryTracks tables dim val

theorem tracked_empty : Tracked {} :=
  ⟨replayInvariant_empty, by simp, by simp, fun dim _ val => historyTracks_empty dim val⟩

theorem isActive_congr {tables tables' : AnalyticsTables}
    (h : tables'.episodes = tables.episodes) (dim val : String) (ep : DegradationEpisode) :
    IsActive tables' dim val ep ↔ IsActive tables dim val ep := by
  rw [IsActive, IsActive, h]

/-- Other snapshots and root cause evaluations do not matter. -/
theorem Tracked.congr {tables tables' : AnalyticsTables} (h : Tracked tables)
    (hsnapshots : ∀ s ∈ tables'.snapshots, s.segmentDimension ∈ healthDimensions)
    (hsignals : tables'.signals = tables.signals) (hepisodes : tables'.episodes = tables.episodes)
    (hhistory : tables'.history = tables.history) : Tracked tables' := by
  refine ⟨⟨?_, ?_⟩, hsnapshots, ?_, fun dim hdim val => ?_⟩
  · rw [hepisodes]
    exact h.replay.table
  · rw [hsignals, hepisodes]
    exact h.replay.current
  · rw [hhistory]
    exact h.history
  · exact (h.tracks dim hdim val).congr hhistory (isActive_congr hepisodes dim val)

/-- The dimensions of Stage 2 are told apart in upper case. -/
theorem healthDimensions_toUpper : ∀ a ∈ healthDimensions, ∀ b ∈ healthDimensions,
    a.toUpper = b.toUpper → a = b := by
  decide +kernel

/-- A run id that no row has is new. -/
theorem newReconciliationRunId_fresh (tables : AnalyticsTables) :
    ∀ row ∈ tables.history, row.reconciliationRunId ≠ newReconciliationRunId tables :=
  fun _ hrow => Table.maxOf_succ_fresh hrow

theorem EpisodeStateHistory.ofSegment_toUpper {row : EpisodeStateHistory} {dim val : String}
    (hrow : row.segmentDimension ∈ healthDimensions) (hdim : dim ∈ healthDimensions) :
    row.ofSegment dim.toUpper val ↔ row.segmentDimension = dim ∧ row.segmentValue = val := by
  rw [EpisodeStateHistory.ofSegment_iff]
  constructor
  · rintro ⟨hupper, hval⟩
    exact ⟨healthDimensions_toUpper _ hrow _ hdim hupper, hval⟩
  · rintro ⟨rfl, hval⟩
    exact ⟨rfl, hval⟩

/-- Reconciling a segment keeps the tables tracked when a row of the segment that is stamped
as late makes the active episode stay as it is. -/
theorem Tracked.store {tables : AnalyticsTables} (h : Tracked tables)
    {new : List DegradationSignal} {dim val : String} (hdim : dim ∈ healthDimensions)
    (hnew : ∀ s ∈ new, s.segmentDimension = dim ∧ s.segmentValue = val) {t : Time}
    (hkept : ∀ row ∈ tables.history, row.segmentDimension = dim → row.segmentValue = val →
      t ≤ row.evaluationTimestamp →
        activeContext (storeReconciliation tables (tables.signals ++ new) dim val t
          (newReconciliationRunId tables)) dim val = activeContext tables dim val) :
    Tracked (storeReconciliation tables (tables.signals ++ new) dim val t
      (newReconciliationRunId tables)) := by
  refine ⟨h.replay.store hnew _ _, h.snapshots, fun row hrow => ?_, fun dim' hdim' val' => ?_⟩
  · obtain ⟨rows, hhistory, hrows⟩ := storeReconciliation_history h.replay
      (tables.signals ++ new) dim val t (newReconciliationRunId tables)
    rw [hhistory] at hrow
    rcases List.mem_append.mp hrow with hold | hrow
    · exact h.history row hold
    · rw [(hrows row hrow).1]
      exact hdim
  · by_cases hsame : dim.toUpper = dim'.toUpper ∧ val = val'
    · obtain rfl := healthDimensions_toUpper _ hdim _ hdim' hsame.1
      obtain ⟨-, rfl⟩ := hsame
      refine (h.tracks dim hdim val).store h.replay hnew (newReconciliationRunId_fresh tables) ?_
      intro row hrow hsegment
      obtain ⟨hd, hv⟩ :=
        (EpisodeStateHistory.ofSegment_toUpper (h.history row hrow) hdim).mp hsegment
      exact hkept row hrow hd hv
    · exact (h.tracks dim' hdim' val').store_other h.replay hnew hsame _ _

/-- A reconciliation of another segment keeps the active episode of this one. -/
theorem activeContext_store_other {tables : AnalyticsTables} (h : ReplayInvariant tables)
    {new : List DegradationSignal} {dim val dim' val' : String}
    (hnew : ∀ s ∈ new, s.segmentDimension = dim ∧ s.segmentValue = val)
    (hne : ¬(dim' = dim ∧ val' = val)) (t : Time) (run : ℕ) :
    activeContext (storeReconciliation tables (tables.signals ++ new) dim val t run) dim' val' =
      activeContext tables dim' val' := by
  refine Option.ext fun context => ?_
  rw [(h.store hnew t run).activeContext_eq_some, h.activeContext_eq_some]
  simp only [isActive_store_other h hnew hne]

/-- A segment of the window is reconciled with new signals of its own. -/
private theorem reconcile_segment {snapshots : List PaymentHealthSnapshot} {t : Time}
    {tables mid : AnalyticsTables} {key : String × String}
    (hkey : ∃ s ∈ snapshots, (s.segmentDimension, s.segmentValue) = key)
    (hmid : processSnapshots tables (snapshots.filter fun s =>
      (s.segmentDimension, s.segmentValue) = key) t (newReconciliationRunId tables) = .ok mid) :
    ∃ new, (∀ s ∈ new, s.segmentDimension = key.1 ∧ s.segmentValue = key.2) ∧
      mid = storeReconciliation tables (tables.signals ++ new) key.1 key.2 t
        (newReconciliationRunId tables) := by
  obtain ⟨s, hs, hkey⟩ := hkey
  have hgroup : ∀ s' ∈ snapshots.filter fun s => (s.segmentDimension, s.segmentValue) = key,
      s'.segmentDimension = key.1 ∧ s'.segmentValue = key.2 := by
    intro s' hs'
    have hsegment : (s'.segmentDimension, s'.segmentValue) = key := by
      simpa using (List.mem_filter.mp hs').2
    exact ⟨congrArg Prod.fst hsegment, congrArg Prod.snd hsegment⟩
  have hne : (snapshots.filter fun s => (s.segmentDimension, s.segmentValue) = key) ≠ [] :=
    List.ne_nil_of_mem (List.mem_filter.mpr ⟨hs, by simpa using hkey⟩)
  exact processSnapshots_ok hne hgroup hmid

/-- The reconciliations of a window keep the active episodes of the other segments. -/
private theorem activeContext_foldlM {snapshots : List PaymentHealthSnapshot} {t : Time}
    {keys : List (String × String)}
    (hkeys : ∀ key ∈ keys, ∃ s ∈ snapshots, (s.segmentDimension, s.segmentValue) = key)
    {tables tables' : AnalyticsTables} (h : ReplayInvariant tables) {dim val : String}
    (hother : (dim, val) ∉ keys)
    (hok : keys.foldlM (fun tables key => processSnapshots tables
      (snapshots.filter fun s => (s.segmentDimension, s.segmentValue) = key) t
      (newReconciliationRunId tables)) tables = .ok tables') :
    activeContext tables' dim val = activeContext tables dim val := by
  induction keys generalizing tables with
  | nil => cases hok; rfl
  | cons key keys ih =>
      obtain ⟨hkey, hkeys⟩ := List.forall_mem_cons.mp hkeys
      obtain ⟨hne, hother⟩ := not_or.mp (mt List.mem_cons.mpr hother)
      simp only [List.foldlM_cons, bind, Except.bind] at hok
      split at hok
      · cases hok
      · rename_i mid hmid
        obtain ⟨new, hnew, rfl⟩ := reconcile_segment hkey hmid
        rw [ih hkeys (h.store hnew _ _) hother hok]
        exact activeContext_store_other h hnew (fun hsame => hne (Prod.ext hsame.1 hsame.2)) _ _

/-- What the reconciliations of a window keep, and where their rows come from. The
induction is on the segments still to be reconciled: a row of one of these that is stamped
as late makes its active episode stay as it is, up to the end of the window. -/
private theorem tracked_foldlM {snapshots : List PaymentHealthSnapshot} {t : Time}
    (hdims : ∀ s ∈ snapshots, s.segmentDimension ∈ healthDimensions)
    {keys : List (String × String)}
    (hkeys : ∀ key ∈ keys, ∃ s ∈ snapshots, (s.segmentDimension, s.segmentValue) = key)
    (hnodup : keys.Nodup) {tables tables' : AnalyticsTables} (h : Tracked tables)
    (hkept : ∀ row ∈ tables.history, (row.segmentDimension, row.segmentValue) ∈ keys →
      t ≤ row.evaluationTimestamp → activeContext tables' row.segmentDimension row.segmentValue =
        activeContext tables row.segmentDimension row.segmentValue)
    (hok : keys.foldlM (fun tables key => processSnapshots tables
      (snapshots.filter fun s => (s.segmentDimension, s.segmentValue) = key) t
      (newReconciliationRunId tables)) tables = .ok tables') :
    Tracked tables' ∧ ∃ rows, tables'.history = tables.history ++ rows ∧
      ∀ row ∈ rows, row.evaluationTimestamp = t := by
  induction keys generalizing tables with
  | nil => cases hok; exact ⟨h, [], by simp, by simp⟩
  | cons key keys ih =>
      obtain ⟨hfresh, hnodup⟩ := List.nodup_cons.mp hnodup
      obtain ⟨hkey, hkeys⟩ := List.forall_mem_cons.mp hkeys
      simp only [List.foldlM_cons, bind, Except.bind] at hok
      split at hok
      · cases hok
      · rename_i mid hmid
        obtain ⟨new, hnew, rfl⟩ := reconcile_segment hkey hmid
        have hdim : key.1 ∈ healthDimensions := by
          obtain ⟨s, hs, rfl⟩ := hkey
          exact hdims s hs
        have hend := activeContext_foldlM hkeys (h.replay.store hnew _ _) hfresh hok
        have htracked := h.store hdim hnew (t := t) fun row hrow hd hv hle => by
          rw [← hend, ← hd, ← hv]
          exact hkept row hrow (by rw [hd, hv]; exact List.mem_cons_self) hle
        obtain ⟨own, hown, hfacts⟩ := storeReconciliation_history h.replay
          (tables.signals ++ new) key.1 key.2 t (newReconciliationRunId tables)
        obtain ⟨htracked', rows, hrows, hstamped⟩ := ih hkeys hnodup htracked (by
          intro row hrow hlater hle
          have hne : ¬(row.segmentDimension = key.1 ∧ row.segmentValue = key.2) := by
            rintro ⟨hd, hv⟩
            exact hfresh (by rwa [hd, hv] at hlater)
          rw [hown] at hrow
          rcases List.mem_append.mp hrow with hold | hrow
          · rw [activeContext_store_other h.replay hnew hne,
              hkept row hold (List.mem_cons_of_mem _ hlater) hle]
          · obtain ⟨hd, hv, -, -⟩ := hfacts row hrow
            exact absurd ⟨hd, hv⟩ hne) hok
        refine ⟨htracked', own ++ rows, by rw [hrows, hown, List.append_assoc], ?_⟩
        intro row hrow
        rcases List.mem_append.mp hrow with hrow | hrow
        · exact (hfacts row hrow).2.2.2
        · exact hstamped row hrow

/-- What Stage 3 keeps when it changes no active episode of a segment with a row stamped as
late. -/
theorem Tracked.detectDegradation {order : ℕ → ℕ} {tables tables' : AnalyticsTables}
    {windowStart t : Time} (h : Tracked tables)
    (hkept : ∀ row ∈ tables.history, t ≤ row.evaluationTimestamp →
      activeContext tables' row.segmentDimension row.segmentValue =
        activeContext tables row.segmentDimension row.segmentValue)
    (hok : detectDegradation order tables windowStart t = .ok tables') :
    Tracked tables' ∧ ∃ rows, tables'.history = tables.history ++ rows ∧
      ∀ row ∈ rows, row.evaluationTimestamp = t := by
  unfold RevenueRecovery.detectDegradation groupBySegment at hok
  dsimp only at hok
  rw [List.foldlM_map] at hok
  refine tracked_foldlM (fun s hs => h.snapshots s ?_) (fun key hkey => ?_)
    (List.nodup_reverse.mpr (List.nodup_dedup _)) h (fun row hrow _ => hkept row hrow) hok
  · have hstored : s ∈ tables.snapshots ∧ windowStart ≤ s.windowStart ∧
        s.windowEnd ≤ windowStart + Time.minutes 5 := by simpa using hs
    exact hstored.1
  · simpa using hkey

/-! ## The commits of Stages 2-4 -/

theorem sameDegradation_of_mem_rcaCommits {events : List PaymentEvent} {now : Time}
    {episodes : List DegradationEpisode} {tables tables' : AnalyticsTables}
    (h : tables' ∈ rcaCommits events now episodes tables) : SameDegradation tables tables' := by
  induction episodes generalizing tables with
  | nil =>
      obtain rfl := List.mem_singleton.mp h
      exact .refl _
  | cons ep episodes ih =>
      unfold rcaCommits at h
      split at h
      · simp at h
      · rename_i evaluated hevaluated
        have hsame := evaluateEpisode_sameDegradation hevaluated
        split at h
        · exact hsame.trans (ih h)
        · rcases List.mem_cons.mp h with rfl | h
          · exact hsame
          · exact hsame.trans (ih h)

/-- The commits of Stage 4 end with what it computes. -/
theorem rcaCommits_getLast? {events : List PaymentEvent} {now : Time}
    {episodes : List DegradationEpisode} {tables tables' : AnalyticsTables}
    (h : episodes.foldlM (fun tables ep => evaluateEpisode events tables ep now) tables =
      .ok tables') : (rcaCommits events now episodes tables).getLast? = some tables' := by
  induction episodes generalizing tables with
  | nil => cases h; rfl
  | cons ep episodes ih =>
      simp only [List.foldlM_cons, bind, Except.bind] at h
      split at h
      · cases h
      · rename_i evaluated hevaluated
        simp only [rcaCommits, hevaluated]
        split
        · exact ih h
        · rw [List.getLast?_cons, ih h]
          rfl

/-- A run that completes Stages 2-4 leaves what the live pipeline computes. -/
theorem stagesCommits_getLast? {order : ℕ → ℕ → ℕ} {db : Database} {e : PaymentEvent}
    {now : Time} {tables : AnalyticsTables} (h : runAnalytics order db e now = .ok tables) :
    (stagesCommits order db e now).getLast? = some tables := by
  simp only [runAnalytics, bind, Except.bind] at h
  split at h
  · cases h
  · rename_i detected hdetected
    simp only [stagesCommits, saveWindow, hdetected]
    rw [List.getLast?_cons, rcaCommits_getLast? h]
    rfl

/-- Each commit holds the snapshots of Stage 2, and the outcome of Stage 3 or nothing of it. -/
theorem mem_stagesCommits {order : ℕ → ℕ → ℕ} {db : Database} {e : PaymentEvent} {now : Time}
    {tables : AnalyticsTables} (h : tables ∈ stagesCommits order db e now) :
    tables = saveWindow db e ∨ ∃ detected, detectDegradation (order 0) (saveWindow db e)
      (Time.windowStart e.timestamp) e.timestamp = .ok detected ∧
        SameDegradation detected tables := by
  simp only [stagesCommits, List.mem_cons] at h
  rcases h with rfl | h
  · exact .inl rfl
  · split at h
    · simp at h
    · rename_i detected hdetected
      exact .inr ⟨detected, hdetected, sameDegradation_of_mem_rcaCommits h⟩

/-- A run leaves the analytics tables as they were, or as one of its commits has them. -/
theorem pipelineStep_analytics (db : Database) (run : PipelineRun) :
    (pipelineStep db run).analytics = db.analytics ∨ (pipelineStep db run).analytics ∈
      stagesCommits run.order (db.apply (.insertEvent run.event)) run.event run.now := by
  set commits := stagesCommits run.order (db.apply (.insertEvent run.event)) run.event run.now
    with hcommits
  have hlast : (pipelineStep db run).analytics ∈
      db.analytics :: run.failsAfter.elim commits commits.take := List.getLastD_mem_cons
  rcases List.mem_cons.mp hlast with hkept | hmade
  · exact .inl hkept
  · refine .inr ?_
    cases hfails : run.failsAfter with
    | none => simpa [hfails] using hmade
    | some n => exact List.mem_of_mem_take (by simpa [hfails] using hmade)

/-- What holds of the store between runs that keep the context. -/
structure TrackedStore (db : Database) : Prop where
  tables : Tracked db.analytics
  stamps : ∀ row ∈ db.analytics.history, ∃ e ∈ db.events, row.evaluationTimestamp = e.timestamp

theorem TrackedStore.pipelineStep {db : Database} {run : PipelineRun} (h : TrackedStore db)
    (hrun : KeepsContext db run) : TrackedStore (pipelineStep db run) := by
  -- The tables are tracked and their rows are old or stamped with the run's event.
  suffices Tracked (RevenueRecovery.pipelineStep db run).analytics ∧
      ∃ rows, (RevenueRecovery.pipelineStep db run).analytics.history =
        db.analytics.history ++ rows ∧
          ∀ row ∈ rows, row.evaluationTimestamp = run.event.timestamp by
    obtain ⟨htables, rows, hrows, hstamped⟩ := this
    refine ⟨htables, fun row hrow => ?_⟩
    rw [hrows] at hrow
    rcases List.mem_append.mp hrow with hrow | hrow
    · obtain ⟨e, he, hstamp⟩ := h.stamps row hrow
      exact ⟨e, List.mem_append_left _ he, hstamp⟩
    · exact ⟨run.event, List.mem_append_right _ (List.mem_singleton.mpr rfl), hstamped row hrow⟩
  rcases pipelineStep_analytics db run with hkept | hcommit
  · rw [hkept]
    exact ⟨h.tables, [], by simp, by simp⟩
  · set ingested := db.apply (.insertEvent run.event) with hingested
    have hsaved : Tracked (saveWindow ingested run.event) :=
      h.tables.congr (fun s hs => (mem_upsertSnapshots hs).elim (h.tables.snapshots s)
        windowSnapshots_dimension) rfl rfl rfl
    rcases mem_stagesCommits hcommit with heq | ⟨detected, hdetected, hsame⟩
    · rw [heq]
      exact ⟨hsaved, [], by simp [saveWindow, hingested, Database.apply], by simp⟩
    · obtain ⟨htracked, rows, hrows, hstamped⟩ := hsaved.detectDegradation
        (fun row hrow hle => by
          rw [← activeContext_congr hsame.episodes]
          exact hrun row hrow hle) hdetected
      refine ⟨htracked.congr ?_ hsame.signals hsame.episodes hsame.history, rows, ?_, hstamped⟩
      · rw [hsame.snapshots]
        exact htracked.snapshots
      · rw [hsame.history, hrows]
        rfl

theorem TrackedStore.currentContext {db : Database} (h : TrackedStore db) :
    CurrentContext db := by
  intro dim hdim val t r hreads ht context
  have hhistory : ∀ k, (r.db k).analytics.history = db.analytics.history ++ [] := by
    intro k
    rw [hreads k, List.append_nil]
  have hknown : ∀ row ∈ db.analytics.history, row.evaluationTimestamp ≤ t := by
    intro row hrow
    obtain ⟨e, he, hstamp⟩ := h.stamps row hrow
    rw [hstamp]
    exact (ht e he).1
  rw [(h.tables.tracks dim hdim val).query h.tables.replay hhistory
    (fun row hrow _ => hknown row hrow) (by simp), Option.map_eq_some_iff]
  simp only [h.tables.replay.storedActiveEpisode_eq_some]

/-! ## The context after a sequence of runs -/

/-- After any sequence of runs that keep the context, the context read for every segment is
that of its active episode. -/
theorem activeEpisodeContext_current (runs : List PipelineRun)
    (hkeep : Run.Guarded sequentialStep KeepsContext {} runs) :
    CurrentContext (afterRuns runs) := by
  have hempty : TrackedStore {} := ⟨tracked_empty, by simp⟩
  have hstore : TrackedStore (afterRuns runs) := by
    refine Run.invariant_guarded (fun db run db' h hrun hstep => ?_) hempty hkeep
      (exec_sequentialStep {} runs)
    obtain rfl := Option.some.inj hstep
    exact h.pipelineStep hrun
  exact hstore.currentContext

/-! ### A late capture -/

namespace LateExample

/-- The start of the first degraded window. -/
def t₀ : Time := Time.weeks 2

def event (i : ℕ) (eventType : String) (t ingestedAt : Time) : PaymentEvent :=
  { eventId := i, sourceSystem := razorpaySourceSystem, sourceEventId := toString i,
    paymentId := toString i, timestamp := t, eventType := eventType, currency := "INR",
    amountMinorUnits := 10000, paymentStatus := "x", ingestedAt := ingestedAt }

def run (i : ℕ) (eventType : String) (t ingestedAt : Time) (failsAfter : Option ℕ) :
    PipelineRun :=
  { event := event i eventType t ingestedAt, notPaypal := rfl, failsAfter := failsAfter }

/-- A capture in window `k` a week earlier. -/
def baseline (k : ℕ) : PipelineRun :=
  let t := t₀ - Time.weeks 1 + Time.minutes 5 * k
  run k capturedEventType t t none

/-- Fifty payments in window `k`, the first `captures` of them captured; the run of the
last one completes. -/
def window (k captures : ℕ) : List PipelineRun :=
  (List.range 50).map fun (i : ℕ) =>
    let t := t₀ + Time.minutes 5 * k + i
    run (100 * (k + 1) + i) (if i < captures then capturedEventType else failedEventType) t t
      (if i < 49 then some 0 else none)

/-- A degraded window and two without success. -/
def degraded : List PipelineRun :=
  (List.range 3).map baseline ++ window 0 44 ++ window 1 0 ++ window 2 0

/-- The end of the last window. -/
def now : Time := t₀ + Time.minutes 15

/-- A capture of the first window that arrives at the end of the last one; its run fails
after it has committed one evaluation of Stage 4. -/
def lateCapture : PipelineRun := run 500 capturedEventType (t₀ + 60) now (some 2)

/-- The first window is still degraded with one more capture. -/
theorem late_keepsContext :
    (Run.execGuarded sequentialStep (fun db run => run.failsAfter = some 0 ∨ KeepsContext db run)
      {} (degraded ++ [lateCapture])).isSome = true := by
  decide +kernel

/-- Eleven captures more; the run of the last of them completes. -/
def late : List PipelineRun :=
  (List.range 11).map fun (i : ℕ) =>
    run (500 + i) capturedEventType (t₀ + 60) now (if i < 10 then some 0 else none)

/-- The first window is not degraded with these. -/
def store : Database := afterRuns (degraded ++ late)

/-- The late run invalidated the episode, and the query still returns it. -/
theorem store_facts : (getActiveEpisodeContext (.all store) "GLOBAL" "ALL" now).isSome ∧
    (storedActiveEpisode store.analytics "GLOBAL" "ALL").isNone ∧
    ∀ e ∈ store.events, e.timestamp ≤ now ∧ e.ingestedAt ≤ now := by
  decide +kernel

end LateExample

open LateExample in
theorem activeEpisodeContext_current_degraded :
    CurrentContext (afterRuns (degraded ++ [lateCapture])) := by
  obtain ⟨db, hdb⟩ := Option.isSome_iff_exists.mp late_keepsContext
  exact activeEpisodeContext_current (degraded ++ [lateCapture])
    ((Run.execGuarded_eq_some.mp hdb).1.mono fun _ _ h => h.elim keepsContext_of_failsAfter id)

open LateExample in
/-- The reconciliation of a late event is shadowed by an earlier run. -/
theorem activeEpisodeContext_shadowed : ¬CurrentContext (afterRuns (degraded ++ late)) := by
  intro (hcurrent : CurrentContext store)
  obtain ⟨hshown, hstored, hnow⟩ := store_facts
  obtain ⟨row, hrow⟩ := Option.isSome_iff_exists.mp hshown
  have hglobal : "GLOBAL".toUpper = "GLOBAL" := by decide +kernel
  obtain ⟨ep, hep, -⟩ := (hcurrent "GLOBAL" (by simp [healthDimensions]) "ALL" now (.all store)
    (fun _ => by simp only [Reads.all]) hnow row.context).mp (by rw [hglobal, hrow]; rfl)
  exact storedActiveEpisode_eq_none.mp (Option.isNone_iff_eq_none.mp hstored) ep hep

end RevenueRecovery
