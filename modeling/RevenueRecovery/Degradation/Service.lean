import RevenueRecovery.Degradation.StateMachine

/-!
# Stage 3: replaying a segment

`processSnapshots` appends a new evaluation of each snapshot's window, reconciles
the whole signal history of the segment and stores the outcome: episodes the
reconciliation no longer returns are invalidated, the others are upserted.

After any sequence of calls the stored episodes that are not invalidated are
exactly those of the reconciliation (`processCalls_reconciled`).

## Main definitions
* `latestSignals` : the signals of a segment, one for each window.
* `processSnapshots` : the service call.
* `ReplayInvariant` : what holds of the Stage 3 tables between calls.
-/
namespace RevenueRecovery

/-- The signals of a segment. -/
def segmentSignals (signals : List DegradationSignal) (dim val : String) :
    List DegradationSignal :=
  signals.filter fun s => s.segmentDimension = dim ∧ s.segmentValue = val

/-- The highest evaluation version of each window of the segment, in window order. -/
def latestSignals (signals : List DegradationSignal) (dim val : String) :
    List DegradationSignal :=
  Table.latestPerGroup (·.windowStart) (·.evaluationVersion) (segmentSignals signals dim val)

def getMaxEvaluationVersion (signals : List DegradationSignal) (dim val : String)
    (windowStart : Time) : ℕ :=
  Table.maxOf (·.evaluationVersion)
    ((segmentSignals signals dim val).filter fun s => s.windowStart = windowStart)

/-- `uq_signal_evaluation_version`. -/
def DegradationSignal.sameEvaluation (a b : DegradationSignal) : Bool :=
  a.segmentDimension == b.segmentDimension && a.segmentValue == b.segmentValue &&
    a.windowStart == b.windowStart && a.evaluationVersion == b.evaluationVersion

def appendSignal (signals : List DegradationSignal) (signal : DegradationSignal) :
    Except ServiceError (List DegradationSignal) :=
  if signals.any signal.sameEvaluation then .error .integrityError
  else .ok (signals ++ [signal])

/-- Evaluate one snapshot as the next version of its window. -/
def evaluateAndAppend (dim val : String) (evaluationTimestamp : Time)
    (signals : List DegradationSignal) (s : PaymentHealthSnapshot) :
    Except ServiceError (List DegradationSignal) := do
  let version := getMaxEvaluationVersion signals dim val s.windowStart + 1
  let signal ← evaluateSnapshot s version evaluationTimestamp
  appendSignal signals signal

/-- The columns `upsert_episode` updates on a stored episode. -/
def mergeEpisode (stored new : DegradationEpisode) : DegradationEpisode :=
  { stored with
    endedAtWindow := new.endedAtWindow
    status := new.status
    peakAbsoluteDrop := new.peakAbsoluteDrop
    affectedWindowCount := new.affectedWindowCount
    severity := new.severity }

def upsertEpisode (episodes : List DegradationEpisode) (ep : DegradationEpisode) :
    List DegradationEpisode :=
  Table.upsert (·.episodeId) mergeEpisode ep episodes

/-- The ledger row of an upserted episode. -/
def historyRow (reconciliationRunId : ℕ) (evaluationTimestamp : Time)
    (ep : DegradationEpisode) : EpisodeStateHistory :=
  { reconciliationRunId := reconciliationRunId
    episodeId := ep.episodeId
    segmentDimension := ep.segmentDimension
    segmentValue := ep.segmentValue
    status := ep.status
    severity := ep.severity
    effectiveStartWindow := ep.startedAtWindow
    evaluationTimestamp := evaluationTimestamp }

def getEpisodesForSegment (episodes : List DegradationEpisode) (dim val : String) :
    List DegradationEpisode :=
  episodes.filter fun ep => ep.segmentDimension = dim ∧ ep.segmentValue = val

/-- The stored episodes of the segment that a reconciliation no longer returns. -/
def staleEpisodes (episodes valid : List DegradationEpisode) (dim val : String) :
    List DegradationEpisode :=
  (getEpisodesForSegment episodes dim val).filter fun ep =>
    ep.episodeId ∉ valid.map (·.episodeId) ∧ ep.status ≠ .invalidated

/-- The episodes a reconciliation upserts, in order: the stale ones, invalidated, and
then the valid ones. -/
def reconciledUpserts (episodes valid : List DegradationEpisode) (dim val : String) :
    List DegradationEpisode :=
  (staleEpisodes episodes valid dim val).map (fun ep => { ep with status := .invalidated }) ++
    valid

/-- The segment's signals after the snapshots, in window order, were evaluated. -/
def appendEvaluations (signals : List DegradationSignal) (snapshots : List PaymentHealthSnapshot)
    (dim val : String) (evaluationTimestamp : Time) :
    Except ServiceError (List DegradationSignal) :=
  (snapshots.insertionSort fun a b => a.windowStart ≤ b.windowStart).foldlM
    (evaluateAndAppend dim val evaluationTimestamp) signals

/-- Reconcile a segment with its signals and store the outcome. -/
def storeReconciliation (tables : AnalyticsTables) (signals : List DegradationSignal)
    (dim val : String) (evaluationTimestamp : Time) (reconciliationRunId : ℕ) :
    AnalyticsTables :=
  let valid := reconcileTimeline (latestSignals signals dim val)
  let upserts := reconciledUpserts tables.episodes valid dim val
  { tables with
    signals := signals
    episodes := upserts.foldl upsertEpisode tables.episodes
    history := tables.history ++ upserts.map (historyRow reconciliationRunId evaluationTimestamp) }

/-- Re-evaluate the snapshots of one segment and reconcile its episodes. -/
def processSnapshots (tables : AnalyticsTables) (snapshots : List PaymentHealthSnapshot)
    (evaluationTimestamp : Time) (reconciliationRunId : ℕ) :
    Except ServiceError AnalyticsTables :=
  match snapshots with
  | [] => .ok tables
  | first :: _ => do
      let signals ← appendEvaluations tables.signals snapshots first.segmentDimension
        first.segmentValue evaluationTimestamp
      return storeReconciliation tables signals first.segmentDimension first.segmentValue
        evaluationTimestamp reconciliationRunId

/-! ## Appended signals -/

theorem evaluateSnapshot_fields {s : PaymentHealthSnapshot} {version : ℕ} {t : Time}
    {signal : DegradationSignal} (h : evaluateSnapshot s version t = .ok signal) :
    signal.segmentDimension = s.segmentDimension ∧ signal.segmentValue = s.segmentValue ∧
      signal.windowStart = s.windowStart ∧ signal.evaluationVersion = version ∧
      signal.evaluationTimestamp = t := by
  unfold evaluateSnapshot at h
  simp only at h
  split at h
  · cases h; simp
  · split at h
    · cases h; simp
    · split at h
      · cases h
      · cases h; simp

theorem evaluateAndAppend_ok {dim val : String} {t : Time} {signals signals' : List DegradationSignal}
    {s : PaymentHealthSnapshot} (h : evaluateAndAppend dim val t signals s = .ok signals') :
    ∃ signal, signals' = signals ++ [signal] ∧ signal.segmentDimension = s.segmentDimension ∧
      signal.segmentValue = s.segmentValue := by
  unfold evaluateAndAppend at h
  simp only [bind, Except.bind] at h
  split at h
  · cases h
  · rename_i signal hsignal
    unfold appendSignal at h
    split at h
    · cases h
    · cases h
      have hf := evaluateSnapshot_fields hsignal
      exact ⟨signal, rfl, hf.1, hf.2.1⟩

private theorem foldlM_evaluate_ok {dim val : String} {t : Time}
    {snapshots : List PaymentHealthSnapshot}
    (hseg : ∀ s ∈ snapshots, s.segmentDimension = dim ∧ s.segmentValue = val)
    {signals signals' : List DegradationSignal}
    (h : snapshots.foldlM (evaluateAndAppend dim val t) signals = .ok signals') :
    ∃ new, signals' = signals ++ new ∧
      ∀ s ∈ new, s.segmentDimension = dim ∧ s.segmentValue = val := by
  induction snapshots generalizing signals with
  | nil => cases h; exact ⟨[], by simp, by simp⟩
  | cons s snapshots ih =>
      simp only [List.foldlM_cons, bind, Except.bind] at h
      split at h
      · cases h
      · rename_i mid hmid
        obtain ⟨signal, rfl, hdim, hval⟩ := evaluateAndAppend_ok hmid
        obtain ⟨hs, hrest⟩ := List.forall_mem_cons.mp hseg
        obtain ⟨new, rfl, hnew⟩ := ih hrest h
        refine ⟨signal :: new, by simp, ?_⟩
        intro x hx
        rcases List.mem_cons.mp hx with rfl | hx
        · exact ⟨hdim.trans hs.1, hval.trans hs.2⟩
        · exact hnew x hx

/-- A successful evaluation appends signals of the segment and changes no other. -/
theorem appendEvaluations_ok {dim val : String} {t : Time}
    {snapshots : List PaymentHealthSnapshot}
    (hseg : ∀ s ∈ snapshots, s.segmentDimension = dim ∧ s.segmentValue = val)
    {signals signals' : List DegradationSignal}
    (h : appendEvaluations signals snapshots dim val t = .ok signals') :
    ∃ new, signals' = signals ++ new ∧
      ∀ s ∈ new, s.segmentDimension = dim ∧ s.segmentValue = val := by
  refine foldlM_evaluate_ok (fun s hs => ?_) h
  exact hseg s ((List.perm_insertionSort _ _).mem_iff.mp hs)

theorem segmentSignals_append_other {signals new : List DegradationSignal}
    {dim val dim' val' : String}
    (hnew : ∀ s ∈ new, s.segmentDimension = dim ∧ s.segmentValue = val)
    (hne : ¬(dim' = dim ∧ val' = val)) :
    segmentSignals (signals ++ new) dim' val' = segmentSignals signals dim' val' := by
  unfold segmentSignals
  rw [List.filter_append]
  have hnone : (new.filter fun s => s.segmentDimension = dim' ∧ s.segmentValue = val') = [] := by
    rw [List.filter_eq_nil_iff]
    intro s hs hmatch
    obtain ⟨hd, hv⟩ := hnew s hs
    simp only [decide_eq_true_eq] at hmatch
    exact hne ⟨hmatch.1.symm.trans hd, hmatch.2.symm.trans hv⟩
  rw [hnone, List.append_nil]

theorem latestSignals_segment {signals : List DegradationSignal} {dim val : String} :
    ∀ s ∈ latestSignals signals dim val, s.segmentDimension = dim ∧ s.segmentValue = val := by
  intro s hs
  simpa [segmentSignals] using (List.mem_filter.mp (Table.latestPerGroup_mem hs)).2

theorem reconcile_latestSignals (signals : List DegradationSignal) (dim val : String) :
    Reconciled dim val (reconcileTimeline (latestSignals signals dim val)) :=
  reconcileTimeline_spec latestSignals_segment Table.latestPerGroup_sorted

/-! ## Stored episodes -/

/-- The id of an episode names its segment and start. -/
def DegradationEpisode.WellFormed (ep : DegradationEpisode) : Prop :=
  ep.OfSegment ep.segmentDimension ep.segmentValue

theorem DegradationEpisode.OfSegment.wellFormed {dim val : String} {ep : DegradationEpisode}
    (h : ep.OfSegment dim val) : ep.WellFormed := by
  obtain ⟨hid, rfl, rfl⟩ := h
  exact ⟨hid, rfl, rfl⟩

/-- Merging into the stored episode of the same id gives the new episode. -/
theorem mergeEpisode_eq {stored new : DegradationEpisode} (hs : stored.WellFormed)
    (hn : new.WellFormed) (hid : stored.episodeId = new.episodeId) :
    mergeEpisode stored new = new := by
  have hparts := hid
  rw [hs.id_eq, hn.id_eq, EpisodeId.mk.injEq] at hparts
  obtain ⟨hdim, hval, hstart⟩ := hparts
  cases stored
  cases new
  simp only [mergeEpisode] at *
  simp [hid, hdim, hval, hstart]

/-- Stored episodes are well formed and have distinct ids. -/
structure EpisodeTable (episodes : List DegradationEpisode) : Prop where
  wellFormed : ∀ ep ∈ episodes, ep.WellFormed
  nodup : (episodes.map (·.episodeId)).Nodup

theorem EpisodeTable.upsert {episodes : List DegradationEpisode} (h : EpisodeTable episodes)
    {new : DegradationEpisode} (hn : new.WellFormed) :
    EpisodeTable (upsertEpisode episodes new) ∧ ∀ ep, ep ∈ upsertEpisode episodes new ↔
      ep = new ∨ (ep ∈ episodes ∧ ep.episodeId ≠ new.episodeId) := by
  have hmerge : ∀ r ∈ episodes, r.episodeId = new.episodeId → mergeEpisode r new = new :=
    fun r hr => mergeEpisode_eq (h.wellFormed r hr) hn
  have hmem := fun ep => Table.mem_upsert (x := ep) hmerge
  refine ⟨⟨fun ep hep => ?_, ?_⟩, hmem⟩
  · rcases (hmem ep).mp hep with rfl | ⟨hep, -⟩
    · exact hn
    · exact h.wellFormed ep hep
  · exact Table.nodup_upsert (fun r hr hk => by rw [hmerge r hr hk]) h.nodup

/-- Upserting several episodes of distinct ids stores exactly these, and keeps the
stored episodes of other ids. -/
theorem EpisodeTable.foldl_upsert {news episodes : List DegradationEpisode}
    (h : EpisodeTable episodes) (hn : ∀ ep ∈ news, ep.WellFormed)
    (hnodup : (news.map (·.episodeId)).Nodup) :
    EpisodeTable (news.foldl upsertEpisode episodes) ∧
      ∀ ep, ep ∈ news.foldl upsertEpisode episodes ↔
        ep ∈ news ∨ (ep ∈ episodes ∧ ep.episodeId ∉ news.map (·.episodeId)) := by
  induction news generalizing episodes with
  | nil => simpa using h
  | cons new news ih =>
      obtain ⟨hnew, hnews⟩ := List.forall_mem_cons.mp hn
      rw [List.map_cons] at hnodup
      obtain ⟨hfresh, hnodup⟩ := List.nodup_cons.mp hnodup
      obtain ⟨htable, hmem⟩ := h.upsert hnew
      obtain ⟨htable', hmem'⟩ := ih htable hnews hnodup
      refine ⟨htable', fun ep => ?_⟩
      rw [List.foldl_cons, hmem' ep, hmem ep]
      simp only [List.mem_cons, List.map_cons, not_or]
      constructor
      · rintro (hep | ⟨rfl | ⟨hep, hne⟩, hnot⟩)
        · exact .inl (.inr hep)
        · exact .inl (.inl rfl)
        · exact .inr ⟨hep, hne, hnot⟩
      · rintro ((rfl | hep) | ⟨hep, hne, hnot⟩)
        · exact .inr ⟨.inl rfl, hfresh⟩
        · exact .inl hep
        · exact .inr ⟨.inr ⟨hep, hne⟩, hnot⟩

/-! ## The replay invariant -/

/-- A call of `process_snapshots`; its snapshots are all of one segment. -/
structure DegradationCall where
  snapshots : List PaymentHealthSnapshot
  evaluationTimestamp : Time
  reconciliationRunId : ℕ
  oneSegment : ∀ s ∈ snapshots, ∀ s' ∈ snapshots,
    s.segmentDimension = s'.segmentDimension ∧ s.segmentValue = s'.segmentValue

/-- The call evaluates snapshots of the segment. -/
def DegradationCall.onSegment (call : DegradationCall) (dim val : String) : Bool :=
  call.snapshots.any fun s => s.segmentDimension = dim ∧ s.segmentValue = val

/-- Make a call; one that raises is rolled back. -/
def processCall (tables : AnalyticsTables) (call : DegradationCall) : AnalyticsTables :=
  match processSnapshots tables call.snapshots call.evaluationTimestamp
      call.reconciliationRunId with
  | .ok tables' => tables'
  | .error _ => tables

/-- The tables after a sequence of calls. -/
def processCalls (calls : List DegradationCall) : AnalyticsTables :=
  calls.foldl processCall {}

/-- The stored episodes of every segment, invalidated ones aside, are those its signals
reconcile to. -/
structure ReplayInvariant (tables : AnalyticsTables) : Prop where
  table : EpisodeTable tables.episodes
  current : ∀ dim val ep, ep ∈ reconcileTimeline (latestSignals tables.signals dim val) ↔
    ep ∈ getEpisodesForSegment tables.episodes dim val ∧ ep.status ≠ .invalidated

theorem replayInvariant_empty : ReplayInvariant {} where
  table := ⟨by simp, by simp⟩
  current := by
    intro dim val ep
    simp [latestSignals, segmentSignals, Table.latestPerGroup, reconcileTimeline,
      getEpisodesForSegment]

private theorem nodup_ids {dim val : String} {episodes : List DegradationEpisode}
    (h : Reconciled dim val episodes) : (episodes.map (·.episodeId)).Nodup := by
  have hstarts : (episodes.map (·.startedAtWindow)).Nodup := h.starts.imp fun hlt => ne_of_lt hlt
  have hids : episodes.map (·.episodeId) =
      (episodes.map (·.startedAtWindow)).map fun start => ⟨dim, val, start⟩ := by
    rw [List.map_map]
    exact List.map_congr_left fun ep hep => (h.segment ep hep).id_eq
  rw [hids]
  exact hstarts.map fun a b hab => (EpisodeId.mk.injEq .. ▸ hab).2.2

/-- The upserts of a reconciliation are of its segment and have distinct ids. -/
theorem reconciledUpserts_spec {episodes valid : List DegradationEpisode}
    {dim val : String} (h : EpisodeTable episodes) (hv : Reconciled dim val valid) :
    (∀ ep ∈ reconciledUpserts episodes valid dim val, ep.OfSegment dim val) ∧
      ((reconciledUpserts episodes valid dim val).map (·.episodeId)).Nodup := by
  have hstale : ∀ ep ∈ staleEpisodes episodes valid dim val, ep ∈ episodes ∧
      ep.OfSegment dim val ∧ ep.episodeId ∉ valid.map (·.episodeId) := by
    intro ep hep
    simp only [staleEpisodes, getEpisodesForSegment, List.mem_filter, decide_eq_true_eq] at hep
    obtain ⟨⟨hmem, hdim, hval⟩, hnot, -⟩ := hep
    have hwf := h.wellFormed ep hmem
    rw [DegradationEpisode.WellFormed, hdim, hval] at hwf
    exact ⟨hmem, hwf, hnot⟩
  constructor
  · intro ep hep
    rcases List.mem_append.mp hep with hep | hep
    · obtain ⟨old, hold, rfl⟩ := List.mem_map.mp hep
      obtain ⟨-, hseg, -⟩ := hstale old hold
      exact ⟨hseg.id_eq, hseg.dimension_eq, hseg.value_eq⟩
    · exact hv.segment ep hep
  · unfold reconciledUpserts
    rw [List.map_append, List.map_map, List.nodup_append]
    refine ⟨?_, nodup_ids hv, ?_⟩
    · exact ((List.filter_sublist.trans List.filter_sublist).map _).nodup h.nodup
    · intro a ha b hb hab
      obtain ⟨old, hold, rfl⟩ := List.mem_map.mp ha
      have hid : old.episodeId = b := hab
      exact (hstale old hold).2.2 (by rw [hid]; exact hb)

/-- Storing a reconciliation restores the invariant for the segment and keeps it for
the others. -/
theorem ReplayInvariant.store {tables : AnalyticsTables} (h : ReplayInvariant tables)
    {new : List DegradationSignal} {dim val : String}
    (hnew : ∀ s ∈ new, s.segmentDimension = dim ∧ s.segmentValue = val) (t : Time) (run : ℕ) :
    ReplayInvariant (storeReconciliation tables (tables.signals ++ new) dim val t run) := by
  have hv := reconcile_latestSignals (tables.signals ++ new) dim val
  unfold storeReconciliation
  generalize hvalid : reconcileTimeline (latestSignals (tables.signals ++ new) dim val) = valid
    at hv
  obtain ⟨hseg, hnodup⟩ := reconciledUpserts_spec h.table hv
  obtain ⟨htable, hmem⟩ := h.table.foldl_upsert (fun ep hep => (hseg ep hep).wellFormed) hnodup
  refine ⟨htable, fun dim' val' ep => ?_⟩
  simp only [getEpisodesForSegment, List.mem_filter, decide_eq_true_eq, hmem ep]
  by_cases hsame : dim' = dim ∧ val' = val
  · obtain ⟨rfl, rfl⟩ := hsame
    rw [hvalid]
    constructor
    · intro hep
      have hof := hv.segment ep hep
      exact ⟨⟨.inl (List.mem_append_right _ hep), hof.dimension_eq, hof.value_eq⟩,
        hv.valid ep hep⟩
    · rintro ⟨⟨hep | ⟨hold, hnot⟩, hdim, hval⟩, hstatus⟩
      · rcases List.mem_append.mp hep with hep | hep
        · obtain ⟨old, -, rfl⟩ := List.mem_map.mp hep
          exact absurd rfl hstatus
        · exact hep
      · -- a stored episode outside the upserts is invalidated already
        simp only [reconciledUpserts, List.map_append, List.map_map, List.mem_append,
          not_or] at hnot
        refine absurd (List.mem_map.mpr ⟨ep, ?_, rfl⟩) hnot.1
        simp only [staleEpisodes, getEpisodesForSegment, List.mem_filter, decide_eq_true_eq]
        exact ⟨⟨hold, hdim, hval⟩, hnot.2, hstatus⟩
  · rw [latestSignals, segmentSignals_append_other hnew hsame, ← latestSignals,
      h.current dim' val' ep]
    simp only [getEpisodesForSegment, List.mem_filter, decide_eq_true_eq]
    have hother : ∀ ep' : DegradationEpisode, ep'.OfSegment dim val → ep'.segmentDimension = dim' →
        ep'.segmentValue ≠ val' := by
      rintro ep' hof rfl rfl
      exact hsame ⟨hof.dimension_eq, hof.value_eq⟩
    constructor
    · rintro ⟨⟨hold, hdim, hval⟩, hstatus⟩
      refine ⟨⟨.inr ⟨hold, fun hid => ?_⟩, hdim, hval⟩, hstatus⟩
      obtain ⟨up, hup, hideq⟩ := List.mem_map.mp hid
      have hparts := (h.table.wellFormed ep hold).id_eq
      rw [← hideq, (hseg up hup).id_eq, EpisodeId.mk.injEq] at hparts
      exact hsame ⟨hdim.symm.trans hparts.1.symm, hval.symm.trans hparts.2.1.symm⟩
    · rintro ⟨⟨hep | ⟨hold, -⟩, hdim, hval⟩, hstatus⟩
      · exact absurd hval (hother ep (hseg ep hep) hdim)
      · exact ⟨⟨hold, hdim, hval⟩, hstatus⟩

/-- A call that succeeds appends signals of its segment and stores the reconciliation. -/
theorem processSnapshots_ok {tables tables' : AnalyticsTables}
    {snapshots : List PaymentHealthSnapshot} {dim val : String} {t : Time} {run : ℕ}
    (hne : snapshots ≠ [])
    (hseg : ∀ s ∈ snapshots, s.segmentDimension = dim ∧ s.segmentValue = val)
    (h : processSnapshots tables snapshots t run = .ok tables') :
    ∃ new, (∀ s ∈ new, s.segmentDimension = dim ∧ s.segmentValue = val) ∧
      tables' = storeReconciliation tables (tables.signals ++ new) dim val t run := by
  cases snapshots with
  | nil => exact absurd rfl hne
  | cons first rest =>
      obtain ⟨rfl, rfl⟩ := hseg first List.mem_cons_self
      simp only [processSnapshots, bind, Except.bind] at h
      split at h
      · cases h
      · rename_i signals' happ
        cases h
        obtain ⟨new, rfl, hnew⟩ := appendEvaluations_ok hseg happ
        exact ⟨new, hnew, rfl⟩

/-- What one call does: nothing, or it appends signals of its segment and stores the
reconciliation. -/
theorem processCall_cases (tables : AnalyticsTables) (call : DegradationCall) :
    processCall tables call = tables ∨ ∃ dim val new, call.onSegment dim val ∧
      (∀ s ∈ new, s.segmentDimension = dim ∧ s.segmentValue = val) ∧
      processCall tables call = storeReconciliation tables (tables.signals ++ new) dim val
        call.evaluationTimestamp call.reconciliationRunId := by
  have hone := call.oneSegment
  unfold processCall
  cases hcall : processSnapshots tables call.snapshots call.evaluationTimestamp
      call.reconciliationRunId with
  | error e => exact .inl rfl
  | ok tables' =>
      cases hsnap : call.snapshots with
      | nil =>
          rw [hsnap] at hcall
          cases hcall
          exact .inl rfl
      | cons first rest =>
          have hfirst : first ∈ call.snapshots := by simp [hsnap]
          obtain ⟨new, hnew, heq⟩ := processSnapshots_ok (by simp [hsnap])
            (fun s hs => hone s hs first hfirst) hcall
          refine .inr ⟨_, _, new, ?_, hnew, heq⟩
          exact List.any_eq_true.mpr ⟨first, hfirst, by simp⟩

theorem ReplayInvariant.processCall {tables : AnalyticsTables} (h : ReplayInvariant tables)
    (call : DegradationCall) : ReplayInvariant (processCall tables call) := by
  rcases processCall_cases tables call with heq | ⟨dim, val, new, -, hnew, heq⟩
  · rw [heq]; exact h
  · rw [heq]; exact h.store hnew _ _

theorem signals_processCall (tables : AnalyticsTables) (call : DegradationCall) :
    tables.signals <+: (processCall tables call).signals := by
  rcases processCall_cases tables call with heq | ⟨dim, val, new, -, -, heq⟩
  · have hsignals := congrArg AnalyticsTables.signals heq
    exact hsignals ▸ List.prefix_rfl
  · rw [heq]; exact List.prefix_append _ _

theorem replayInvariant_foldl {tables : AnalyticsTables} (h : ReplayInvariant tables)
    (calls : List DegradationCall) : ReplayInvariant (calls.foldl processCall tables) := by
  induction calls generalizing tables with
  | nil => exact h
  | cons call calls ih => exact ih (h.processCall call)

theorem signals_foldl (tables : AnalyticsTables) (calls : List DegradationCall) :
    tables.signals <+: (calls.foldl processCall tables).signals := by
  induction calls generalizing tables with
  | nil => exact List.prefix_refl _
  | cons call calls ih => exact (signals_processCall tables call).trans (ih _)

/-- After any sequence of calls: the stored episodes of a segment that are not
invalidated are, field for field, those of the reconciliation of its latest signals;
the others are invalidated; each id is stored once; an episode once invalidated that
is reconciled again is stored with its new fields; and signals are only appended. -/
theorem processCalls_reconciled (before after : List DegradationCall) :
    let earlier := processCalls before
    let tables := processCalls (before ++ after)
    (∀ dim val ep, ep ∈ reconcileTimeline (latestSignals tables.signals dim val) ↔
      ep ∈ getEpisodesForSegment tables.episodes dim val ∧ ep.status ≠ .invalidated) ∧
    (∀ dim val, ∀ ep ∈ getEpisodesForSegment tables.episodes dim val,
      ep ∉ reconcileTimeline (latestSignals tables.signals dim val) →
        ep.status = .invalidated) ∧
    (tables.episodes.map (·.episodeId)).Nodup ∧
    (∀ old ∈ earlier.episodes, old.status = .invalidated → ∀ dim val,
      ∀ ep ∈ reconcileTimeline (latestSignals tables.signals dim val),
        ep.episodeId = old.episodeId → ep ∈ tables.episodes ∧ old ∉ tables.episodes) ∧
    earlier.signals <+: tables.signals := by
  have hinv : ReplayInvariant (processCalls (before ++ after)) :=
    replayInvariant_foldl replayInvariant_empty _
  refine ⟨hinv.current, fun dim val ep hep hnot => ?_, hinv.table.nodup, ?_, ?_⟩
  · by_contra hstatus
    exact hnot ((hinv.current dim val ep).mpr ⟨hep, hstatus⟩)
  · intro old _ hinvalid dim val ep hep hid
    obtain ⟨hmem, hstatus⟩ := (hinv.current dim val ep).mp hep
    have hstored : ep ∈ (processCalls (before ++ after)).episodes := (List.mem_filter.mp hmem).1
    refine ⟨hstored, fun hold => hstatus ?_⟩
    rw [List.inj_on_of_nodup_map hinv.table.nodup hstored hold hid, hinvalid]
  · unfold processCalls
    rw [List.foldl_append]
    exact signals_foldl _ _

end RevenueRecovery
