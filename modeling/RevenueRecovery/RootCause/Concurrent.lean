import Mathlib.Data.Prod.Lex
import RevenueRecovery.Lib.Locked
import RevenueRecovery.RootCause.Fingerprint

/-!
# Stage 4: concurrent evaluations

A call of `evaluate_episode` reads its inputs and the latest evaluation without a lock. If
its inputs changed it waits for the version lock of the episode, reads the highest version
and inserts the next evaluation with its ranked candidates, whether or not another call has
stored the same evaluation in between. Events and the tables of Stages 2 and 3 change at
any time.

## Main definitions
* `EvaluationDraft`, `evaluationDraft` : what a call decides before it waits for the lock.
* `rcaStep`, `rcaProgram`, `rcaRun` : any interleaving of calls for any episodes.
* `Ranked` : the candidates of one evaluation, as they should be stored.
* `Evaluations` : every stored evaluation with its candidates.
* `evaluations_log` : what holds of the two tables in every run.
-/
namespace RevenueRecovery

open Transaction

/-! ## What a call decides -/

/-- The tables calls read, with those they append to. -/
structure RCATables where
  events : List PaymentEvent := []
  analytics : AnalyticsTables := {}

/-- An evaluation with its qualified candidates, before a version is allocated. -/
structure EvaluationDraft where
  episodeId : EpisodeId
  window : Time × Time
  classification : RCAClassification
  fingerprint : RCAFingerprint
  qualified : List QualifiedCandidate

/-- An `UNKNOWN` evaluation. -/
def unknownDraft (fingerprint : RCAFingerprint) (window : Time × Time) : EvaluationDraft :=
  ⟨fingerprint.episodeId, window, .unknown, fingerprint, []⟩

/-- The check of `_persist_unknown`. -/
def unknownUnlessUnchanged (tables : AnalyticsTables) (fingerprint : RCAFingerprint)
    (window : Time × Time) : Option EvaluationDraft :=
  if unchangedInputs tables fingerprint then none else some (unknownDraft fingerprint window)

/-- The figures of every segment present in the window, each from snapshots of its own
statement; the first of these is the statement `start`. -/
def structuralResultsFrom (reads : ℕ → RCATables) (start : ℕ) (terminalEvents : List PaymentEvent)
    (histStarts : List Time) : List StructuralResult :=
  (segmentKeys terminalEvents).mapIdx fun i k =>
    evaluateStructuralCandidate (reads (start + i)).analytics.snapshots terminalEvents histStarts
      k.1.1 k.1.2 k.2

/-- The evaluation of an episode with changed inputs and enough failures. -/
def classifiedDraft (window : Time × Time) (fingerprint : RCAFingerprint) (totals : EpisodeTotals)
    (results : List StructuralResult) : EvaluationDraft :=
  if totals.episodeTotalExcessFailures ≤ 0 then unknownDraft fingerprint window
  else
    let qualified := results.filterMap (qualifyCandidate totals.episodeTotalExcessFailures)
    ⟨fingerprint.episodeId, window, if qualified = [] then .systemic else .segmentSpecific,
      fingerprint, qualified⟩

/-- What a call decides without the lock: to append an evaluation, or that the inputs of
the latest one have not changed. -/
def evaluationDraft (reads : ℕ → RCATables) (ep : DegradationEpisode) :
    Except ServiceError (Option EvaluationDraft) :=
  if ep.status = .invalidated then
    let window := (ep.startedAtWindow, ep.startedAtWindow + Time.minutes 5)
    .ok (unknownUnlessUnchanged (reads 0).analytics (computeInputFingerprint ep window 0 0 [])
      window)
  else do
    let window ← computeAnalysisWindow ep.startedAtWindow ep.endedAtWindow
      (getLatestBadWindowStart (reads 0).analytics.signals ep) ep.status
    let terminalEvents := terminalEventsInWindow (reads 1).events window
    let failures := failureCount terminalEvents
    if failures < minFailuresForRcaEvaluation then
      let fingerprint := computeInputFingerprint ep window failures terminalEvents.length []
      if unchangedInputs (reads 2).analytics fingerprint then return none
      -- `_persist_unknown` checks once more
      return unknownUnlessUnchanged (reads 3).analytics fingerprint window
    let histStarts := getAllHistoricalStarts window.1 window.2
    let results := structuralResultsFrom reads 2 terminalEvents histStarts
    let fingerprint := computeInputFingerprint ep window failures terminalEvents.length
      (results.flatMap (·.histTuples))
    let k := 2 + results.length
    if unchangedInputs (reads k).analytics fingerprint then return none
    return some (classifiedDraft window fingerprint
      (episodeTotals (reads (k + 1)).analytics.snapshots terminalEvents histStarts) results)

/-! ## The program -/

/-- What is written: other stages replace their tables, calls append rows. -/
inductive RCAWrite
  | upstream (events : List PaymentEvent) (analytics : AnalyticsTables)
  | appendEvaluation (row : RootCauseAnalysisEvaluation)
  | appendCandidate (row : CandidateCause)

/-- Where a call stands. -/
inductive RCAProc
  | start (episode : DegradationEpisode)
  | locked (draft : EvaluationDraft)
  | written
  | finished
  | failed

/-- Other stages commit; calls start. -/
inductive RCAArrival
  | upstream (events : List PaymentEvent) (analytics : AnalyticsTables)
  | evaluate (episode : DegradationEpisode)

/-- The `max_version + 1` of an episode. -/
def nextEvaluationVersion (tables : AnalyticsTables) (id : EpisodeId) : ℕ :=
  Table.maxOf (·.evaluationVersion) (tables.evaluations.filter fun r => r.episodeId = id) + 1

namespace EvaluationDraft

/-- The row of the evaluation once it has a version. -/
def evaluation (d : EvaluationDraft) (version : ℕ) (generatedAt : Time) :
    RootCauseAnalysisEvaluation :=
  { evaluationId := ⟨d.episodeId, version⟩
    episodeId := d.episodeId
    evaluationVersion := version
    classification := d.classification
    analysisWindowStart := d.window.1
    analysisWindowEnd := d.window.2
    inputFingerprint := d.fingerprint
    generatedAt := generatedAt }

/-- The rows of its candidates. -/
def candidates (d : EvaluationDraft) (version : ℕ) : List CandidateCause :=
  candidateRows ⟨d.episodeId, version⟩ d.qualified

/-- The evaluation is inserted, then its candidates. -/
def writes (d : EvaluationDraft) (version : ℕ) (generatedAt : Time) : List RCAWrite :=
  .appendEvaluation (d.evaluation version generatedAt) ::
    (d.candidates version).map .appendCandidate

end EvaluationDraft

abbrev RCAOutcome := Outcome RCAWrite EpisodeId Unit RCAProc
abbrev RCASession := Session RCATables RCAWrite EpisodeId RCAProc
abbrev RCAWorld := World RCATables RCAWrite EpisodeId Unit RCAProc
abbrev RCAAction := Action Time RCAArrival

/-- The next step of a call, at the wall-clock time it reads. -/
def rcaStep (reads : ℕ → RCATables) (clock : Time) : RCAProc → Option RCAOutcome
  | .start ep =>
      match evaluationDraft reads ep with
      | .error _ => some (.rollback .failed)
      | .ok none => some (.rollback .finished)
      | .ok (some draft) => some (.lock draft.episodeId (.locked draft))
  | .locked draft =>
      let version := nextEvaluationVersion (reads 0).analytics draft.episodeId
      some (.write (draft.writes version clock) .written)
  | .written => some (.commit .finished)
  | .finished => none
  | .failed => none

/-- A call that dies or raises is rolled back. -/
def RCAProc.onError : RCAProc → RCAProc
  | .finished => .finished
  | _ => .failed

def RCATables.apply (db : RCATables) : RCAWrite → RCATables
  | .upstream events analytics =>
      ⟨events, { analytics with evaluations := db.analytics.evaluations
                                candidates := db.analytics.candidates }⟩
  | .appendEvaluation row =>
      { db with analytics := { db.analytics with
          evaluations := db.analytics.evaluations ++ [row] } }
  | .appendCandidate row =>
      { db with analytics := { db.analytics with
          candidates := db.analytics.candidates ++ [row] } }

/-- The primary key, or the version of the episode. -/
def RootCauseAnalysisEvaluation.sameKey (a b : RootCauseAnalysisEvaluation) : Bool :=
  a.evaluationId = b.evaluationId ||
    (a.episodeId = b.episodeId && a.evaluationVersion = b.evaluationVersion)

/-- What the primary key of a candidate is made of. -/
def CandidateCause.key (c : CandidateCause) : EvaluationId × String × String :=
  (c.evaluationId, c.candidateDimension, c.candidateValue)

/-- The keys of `rca_evaluations` and `rca_candidate_causes`. -/
def RCATables.violates (db : RCATables) : RCAWrite → Bool
  | .upstream .. => false
  | .appendEvaluation row => db.analytics.evaluations.any (·.sameKey row)
  | .appendCandidate row => db.analytics.candidates.any fun c => c.key = row.key

/-- Rows compete for a key. -/
def RCAWrite.clashes : RCAWrite → RCAWrite → Bool
  | .appendEvaluation a, .appendEvaluation b => a.sameKey b
  | .appendCandidate a, .appendCandidate b => a.key = b.key
  | _, _ => false

theorem RCAWrite.clashes_symm (a b : RCAWrite) : a.clashes b = b.clashes a := by
  cases a <;> cases b <;> simp only [clashes, RootCauseAnalysisEvaluation.sameKey, eq_comm]

/-- Calls for any episodes, and commits of other stages, at any time. -/
def rcaProgram : Program RCATables RCAWrite EpisodeId Unit RCAProc Time RCAArrival where
  apply := RCATables.apply
  violates := RCATables.violates
  clashes := RCAWrite.clashes
  clashes_symm := RCAWrite.clashes_symm
  step p clock reads _ := rcaStep reads clock p
  onError := RCAProc.onError
  arrive
    | .upstream events analytics, _ => some ([.upstream events analytics], [])
    | .evaluate ep, _ => some ([], [.start ep])

/-- Any interleaving of calls, from empty tables. -/
def rcaRun (as : List RCAAction) : Option RCAWorld :=
  Run.exec rcaProgram.worldStep ⟨{}, [], []⟩ as

/-- What a step of a call can be. -/
inductive RCAStepped (reads : ℕ → RCATables) (clock : Time) : RCAProc → RCAOutcome → Prop
  | raised {ep e} (hdraft : evaluationDraft reads ep = .error e) :
      RCAStepped reads clock (.start ep) (.rollback .failed)
  | unchanged {ep} (hdraft : evaluationDraft reads ep = .ok none) :
      RCAStepped reads clock (.start ep) (.rollback .finished)
  | drafted {ep d} (hdraft : evaluationDraft reads ep = .ok (some d)) :
      RCAStepped reads clock (.start ep) (.lock d.episodeId (.locked d))
  | allocated {d} : RCAStepped reads clock (.locked d)
      (.write (d.writes (nextEvaluationVersion (reads 0).analytics d.episodeId) clock) .written)
  | committed : RCAStepped reads clock .written (.commit .finished)

theorem rcaStepped {db : RCATables} {s : RCASession} {clock : Time} {o : RCAOutcome}
    (h : rcaProgram.outcome db s clock = some o) :
    RCAStepped (rcaProgram.reads db s) clock s.proc o := by
  have hstep : rcaStep (rcaProgram.reads db s) clock s.proc = some o := h
  generalize s.proc = p at hstep
  cases p with
  | start ep =>
      simp only [rcaStep] at hstep
      split at hstep
      · rename_i hdraft
        cases hstep
        exact .raised hdraft
      · rename_i hdraft
        cases hstep
        exact .unchanged hdraft
      · rename_i hdraft
        cases hstep
        exact .drafted hdraft
  | locked d =>
      cases hstep
      exact .allocated
  | written =>
      cases hstep
      exact .committed
  | finished => cases hstep
  | failed => cases hstep

/-- The evaluations of an episode, oldest first. -/
def RCATables.evaluationsOf (db : RCATables) (id : EpisodeId) : List RootCauseAnalysisEvaluation :=
  db.analytics.evaluations.filter fun e => e.episodeId = id

/-- The candidates of an evaluation, in the order they were inserted. -/
def RCATables.candidatesOf (db : RCATables) (id : EvaluationId) : List CandidateCause :=
  db.analytics.candidates.filter fun c => c.evaluationId = id

/-! ## One call alone -/

section Alone
variable {events : List PaymentEvent} {tables : AnalyticsTables} {ep : DegradationEpisode}
  {now : Time}

/-- The draft, appended as the next version. -/
def EvaluationDraft.appendTo (d : EvaluationDraft) (tables : AnalyticsTables) (now : Time) :
    AnalyticsTables :=
  appendEvaluation tables d.episodeId d.window d.classification d.fingerprint now
    (rankCandidates d.qualified)

theorem structuralResultsFrom_const (start : ℕ) (terminalEvents : List PaymentEvent)
    (histStarts : List Time) :
    structuralResultsFrom (fun _ => ⟨events, tables⟩) start terminalEvents histStarts =
      evaluateStructuralCandidates tables.snapshots terminalEvents histStarts := by
  have hmap : structuralResultsFrom (fun _ => ⟨events, tables⟩) start terminalEvents histStarts =
      (segmentKeys terminalEvents).map fun k => evaluateStructuralCandidate tables.snapshots
        terminalEvents histStarts k.1.1 k.1.2 k.2 := by
    refine List.ext_getElem (by simp [structuralResultsFrom]) fun i hi hi' => ?_
    simp [structuralResultsFrom]
  rw [hmap, segmentKeys, List.map_flatMap]
  simp only [List.map_map]
  rfl

theorem persistUnknown_eq (fingerprint : RCAFingerprint) (window : Time × Time) :
    persistUnknown tables fingerprint window now =
      (unknownUnlessUnchanged tables fingerprint window).elim tables (·.appendTo tables now) := by
  unfold persistUnknown unknownUnlessUnchanged
  split <;> rfl

theorem classifyEpisode_eq {fingerprint : RCAFingerprint} (window : Time × Time)
    (hid : fingerprint.episodeId = ep.episodeId) (totals : EpisodeTotals)
    (results : List StructuralResult) :
    classifyEpisode tables ep window fingerprint totals results now =
      (classifiedDraft window fingerprint totals results).appendTo tables now := by
  unfold classifyEpisode classifiedDraft
  rw [← hid]
  split <;> rfl

/-- A call that no other one disturbs is the sequential evaluation. -/
theorem evaluateEpisode_eq : evaluateEpisode events tables ep now =
    (evaluationDraft (fun _ => ⟨events, tables⟩) ep).map fun d =>
      d.elim tables (·.appendTo tables now) := by
  unfold evaluateEpisode evaluationDraft
  split
  · exact congrArg Except.ok (persistUnknown_eq _ _)
  · cases computeAnalysisWindow ep.startedAtWindow ep.endedAtWindow
        (getLatestBadWindowStart tables.signals ep) ep.status with
    | error e => rfl
    | ok window =>
        simp only [bind, Except.bind, pure, Except.pure, structuralResultsFrom_const]
        split
        · rw [persistUnknown_eq, unknownUnlessUnchanged]
          split <;> rfl
        · split
          · rfl
          · rw [classifyEpisode_eq window rfl]
            rfl

/-- What the writes of an evaluation append. -/
theorem applyAll_evaluation (db : RCATables) (e : RootCauseAnalysisEvaluation)
    (rows : List CandidateCause) :
    rcaProgram.applyAll db (.appendEvaluation e :: rows.map .appendCandidate) =
      { db with analytics := { db.analytics with
          evaluations := db.analytics.evaluations ++ [e]
          candidates := db.analytics.candidates ++ rows } } := by
  have hcandidates : ∀ (rows : List CandidateCause) (db : RCATables),
      rcaProgram.applyAll db (rows.map .appendCandidate) =
        { db with analytics := { db.analytics with
            candidates := db.analytics.candidates ++ rows } } := by
    intro rows
    induction rows with
    | nil => simp
    | cons c rows ih =>
        intro db
        rw [List.map_cons, Program.applyAll_cons]
        refine (ih _).trans ?_
        simp [rcaProgram, RCATables.apply]
  rw [Program.applyAll_cons]
  exact hcandidates _ _

end Alone

/-! ## Ranked candidates -/

/-- The candidate order: contribution and failures descending, then dimension and value. -/
def CandidateCause.Precedes (a b : CandidateCause) : Prop :=
  b.excessFailureContribution < a.excessFailureContribution ∨
    a.excessFailureContribution = b.excessFailureContribution ∧
    (b.actualSegmentFailures < a.actualSegmentFailures ∨
      a.actualSegmentFailures = b.actualSegmentFailures ∧
      (a.candidateDimension < b.candidateDimension ∨
        a.candidateDimension = b.candidateDimension ∧ a.candidateValue < b.candidateValue))

/-- The segment a candidate names. -/
def CandidateCause.segment (c : CandidateCause) : String × String :=
  (c.candidateDimension, c.candidateValue)

/-- Candidates of one evaluation: ranks `1, 2, …` in the candidate order, each of a segment
of its own. -/
structure Ranked (rows : List CandidateCause) : Prop where
  ranks : Table.Numbered (·.rank) rows
  ordered : rows.Pairwise CandidateCause.Precedes
  distinct : (rows.map (·.segment)).Nodup

namespace QualifiedCandidate

def segment (c : QualifiedCandidate) : String × String := (c.result.dimension, c.result.value)

/-- The candidate order as a linear order of keys. -/
def sortKey (c : QualifiedCandidate) : ℚᵒᵈ ×ₗ ℕᵒᵈ ×ₗ String ×ₗ String :=
  toLex (OrderDual.toDual c.contribution, toLex (OrderDual.toDual c.result.actualSegmentFailures,
    toLex (c.result.dimension, c.result.value)))

theorem le_iff {a b : QualifiedCandidate} : a.le b = true ↔ a.sortKey ≤ b.sortKey := by
  simp only [le, sortKey, Prod.Lex.toLex_le_toLex, OrderDual.toDual_lt_toDual,
    EmbeddingLike.apply_eq_iff_eq, Bool.or_eq_true, Bool.and_eq_true, decide_eq_true_eq,
    beq_iff_eq, gt_iff_lt]

theorem pairwise_rankCandidates (candidates : List QualifiedCandidate) :
    (rankCandidates candidates).Pairwise fun a b => a.sortKey ≤ b.sortKey := by
  have htotal : Std.Total fun a b : QualifiedCandidate => a.le b = true :=
    ⟨fun a b => by simpa only [le_iff] using le_total a.sortKey b.sortKey⟩
  have htrans : IsTrans QualifiedCandidate fun a b => a.le b = true :=
    ⟨fun a b c => by simpa only [le_iff] using le_trans⟩
  exact (List.pairwise_insertionSort (fun a b : QualifiedCandidate => a.le b = true)
    candidates).imp le_iff.mp

/-- In the order and of distinct segments, candidates follow each other strictly. -/
theorem precedes {a b : QualifiedCandidate} (h : a.sortKey ≤ b.sortKey)
    (hne : a.segment ≠ b.segment) (id : EvaluationId) (i j : ℕ) :
    (candidateRow id i a).Precedes (candidateRow id j b) := by
  have hlt : a.sortKey < b.sortKey := by
    refine lt_of_le_of_ne h fun heq => hne ?_
    exact congrArg (fun k => ofLex (ofLex (ofLex k).2).2) heq
  simp only [sortKey, Prod.Lex.toLex_lt_toLex, OrderDual.toDual_lt_toDual,
    EmbeddingLike.apply_eq_iff_eq] at hlt
  exact hlt

end QualifiedCandidate

/-- The rows of candidates of distinct segments are ranked. -/
theorem ranked_candidateRows {qualified : List QualifiedCandidate}
    (hdistinct : (qualified.map (·.segment)).Nodup) (id : EvaluationId) :
    Ranked (candidateRows id qualified) := by
  have hperm : (rankCandidates qualified).Perm qualified := List.perm_insertionSort _ _
  have hnodup : ((rankCandidates qualified).map (·.segment)).Nodup :=
    (hperm.map _).nodup_iff.mpr hdistinct
  refine ⟨?_, ?_, ?_⟩
  · refine List.ext_getElem (by simp) fun i hi hi' => ?_
    simp [candidateRows, candidateRow, Nat.add_comm]
  · rw [List.pairwise_iff_getElem]
    intro i j hi hj hij
    simp only [candidateRows, List.length_mapIdx] at hi hj
    simp only [candidateRows, List.getElem_mapIdx]
    have hle := List.pairwise_iff_getElem.mp
      (QualifiedCandidate.pairwise_rankCandidates qualified) i j hi hj hij
    have hne := List.pairwise_iff_getElem.mp hnodup i j (by simpa) (by simpa) hij
    simp only [List.getElem_map] at hne
    exact QualifiedCandidate.precedes hle hne id _ _
  · have hsegments : (candidateRows id qualified).map (·.segment) =
        (rankCandidates qualified).map (·.segment) := by
      refine List.ext_getElem (by simp [candidateRows]) fun i hi hi' => ?_
      simp [candidateRows, candidateRow, CandidateCause.segment, QualifiedCandidate.segment]
    rw [hsegments]
    exact hnodup

/-- The candidates a call qualifies are of distinct segments. -/
theorem nodup_classifiedDraft (window : Time × Time) (fingerprint : RCAFingerprint)
    (totals : EpisodeTotals) {results : List StructuralResult}
    (hdistinct : (results.map fun r => (r.dimension, r.value)).Nodup) :
    ((classifiedDraft window fingerprint totals results).qualified.map (·.segment)).Nodup := by
  unfold classifiedDraft
  split
  · exact List.nodup_nil
  · rw [List.Nodup, List.pairwise_map] at hdistinct ⊢
    refine List.Pairwise.filterMap _ (fun r r' hne c hc c' hc' => ?_) hdistinct
    obtain ⟨-, -, -, -, -, rfl⟩ := qualifyCandidate_eq_some.mp hc
    obtain ⟨-, -, -, -, -, rfl⟩ := qualifyCandidate_eq_some.mp hc'
    exact hne

theorem nodup_structuralResultsFrom (reads : ℕ → RCATables) (start : ℕ)
    (terminalEvents : List PaymentEvent) (histStarts : List Time) :
    ((structuralResultsFrom reads start terminalEvents histStarts).map
      fun r => (r.dimension, r.value)).Nodup := by
  have hnames : (structuralResultsFrom reads start terminalEvents histStarts).map
      (fun r => (r.dimension, r.value)) =
        (segmentKeys terminalEvents).map fun k => (k.1.1, k.2) := by
    refine List.ext_getElem (by simp [structuralResultsFrom]) fun i hi hi' => ?_
    simp [structuralResultsFrom, evaluateStructuralCandidate]
  rw [hnames]
  exact nodup_segmentKeys terminalEvents

theorem nodup_evaluationDraft {reads : ℕ → RCATables} {ep : DegradationEpisode}
    {d : EvaluationDraft} (h : evaluationDraft reads ep = .ok (some d)) :
    (d.qualified.map (·.segment)).Nodup := by
  have hunknown : ∀ {tables fingerprint window},
      unknownUnlessUnchanged tables fingerprint window = some d →
      (d.qualified.map (·.segment)).Nodup := by
    intro tables fingerprint window h
    unfold unknownUnlessUnchanged at h
    split at h
    · cases h
    · cases h
      exact List.nodup_nil
  unfold evaluationDraft at h
  split at h
  · exact hunknown (Except.ok.inj h)
  · simp only [bind, Except.bind, pure, Except.pure] at h
    split at h
    · cases h
    · split at h
      · split at h
        · cases h
        · exact hunknown (Except.ok.inj h)
      · split at h
        · cases h
        · cases h
          exact nodup_classifiedDraft _ _ _ (nodup_structuralResultsFrom _ _ _ _)

/-! ## Every evaluation with its candidates -/

/-- The candidates are those of the evaluation. -/
structure OfEvaluation (e : RootCauseAnalysisEvaluation) (rows : List CandidateCause) : Prop where
  id : e.evaluationId = ⟨e.episodeId, e.evaluationVersion⟩
  owner : ∀ c ∈ rows, c.evaluationId = e.evaluationId
  ranked : Ranked rows

theorem EvaluationDraft.ofEvaluation {d : EvaluationDraft}
    (h : (d.qualified.map (·.segment)).Nodup) (version : ℕ) (now : Time) :
    OfEvaluation (d.evaluation version now) (d.candidates version) where
  id := rfl
  owner c hc := by
    simp only [candidates, candidateRows, List.mem_mapIdx] at hc
    obtain ⟨i, hi, rfl⟩ := hc
    rfl
  ranked := ranked_candidateRows h _

/-- The two tables hold evaluations, each with its candidates. -/
def Evaluations (db : RCATables) : Prop :=
  ∃ blocks : List (RootCauseAnalysisEvaluation × List CandidateCause),
    (∀ b ∈ blocks, OfEvaluation b.1 b.2) ∧
    db.analytics.evaluations = blocks.map Prod.fst ∧
    db.analytics.candidates = blocks.flatMap Prod.snd

/-- What a call has yet to commit. -/
def PendingEvaluation (s : RCASession) : Prop :=
  match s.proc with
  | .locked d => s.pending = [] ∧ (d.qualified.map (·.segment)).Nodup
  | .written => ∃ e rows, OfEvaluation e rows ∧
      s.pending = .appendEvaluation e :: rows.map .appendCandidate
  | _ => s.pending = []

theorem Evaluations.append {db : RCATables} (h : Evaluations db) {e : RootCauseAnalysisEvaluation}
    {rows : List CandidateCause} (hrows : OfEvaluation e rows) :
    Evaluations (rcaProgram.applyAll db (.appendEvaluation e :: rows.map .appendCandidate)) := by
  obtain ⟨blocks, hblocks, hevaluations, hcandidates⟩ := h
  refine ⟨blocks ++ [(e, rows)], fun b hb => ?_, ?_, ?_⟩
  · rcases List.mem_append.mp hb with hb | hb
    · exact hblocks b hb
    · rw [List.mem_singleton.mp hb]
      exact hrows
  · rw [applyAll_evaluation, List.map_append, ← hevaluations]
    rfl
  · rw [applyAll_evaluation, List.flatMap_append, ← hcandidates]
    simp

namespace Evaluations
variable {db : RCATables}

theorem id_eq (h : Evaluations db) {e : RootCauseAnalysisEvaluation}
    (he : e ∈ db.analytics.evaluations) : e.evaluationId = ⟨e.episodeId, e.evaluationVersion⟩ := by
  obtain ⟨blocks, hblocks, hevaluations, -⟩ := h
  rw [hevaluations] at he
  obtain ⟨b, hb, rfl⟩ := List.mem_map.mp he
  exact (hblocks b hb).id

/-- Every candidate is of a stored evaluation. -/
theorem owner (h : Evaluations db) {c : CandidateCause} (hc : c ∈ db.analytics.candidates) :
    ∃ e ∈ db.analytics.evaluations, e.evaluationId = c.evaluationId := by
  obtain ⟨blocks, hblocks, hevaluations, hcandidates⟩ := h
  rw [hcandidates] at hc
  obtain ⟨b, hb, hc⟩ := List.mem_flatMap.mp hc
  exact ⟨b.1, hevaluations ▸ List.mem_map_of_mem hb, ((hblocks b hb).owner c hc).symm⟩

/-- When versions are unique, the candidates of an evaluation are ranked. -/
theorem ranked (h : Evaluations db)
    (hnumbered : ∀ id, Table.Numbered (·.evaluationVersion) (db.evaluationsOf id))
    {e : RootCauseAnalysisEvaluation} (he : e ∈ db.analytics.evaluations) :
    Ranked (db.candidatesOf e.evaluationId) := by
  have hids : (db.analytics.evaluations.map (·.evaluationId)).Nodup := by
    refine List.Nodup.of_map (fun id => (id.episodeId, id.evaluationVersion)) ?_
    have hpairs := Table.nodup_of_groups fun id => (hnumbered id).nodup
    rw [List.map_map]
    refine (List.map_congr_left fun e he => ?_) ▸ hpairs
    rw [Function.comp_apply, h.id_eq he]
  obtain ⟨blocks, hblocks, hevaluations, hcandidates⟩ := h
  rw [hevaluations] at he hids
  rw [List.map_map] at hids
  obtain ⟨b, hb, rfl⟩ := List.mem_map.mp he
  have hblock : db.candidatesOf b.1.evaluationId = b.2 := by
    rw [RCATables.candidatesOf, hcandidates]
    exact Table.filter_flatMap_block hids (fun b hb c hc => (hblocks b hb).owner c hc) hb
  rw [hblock]
  exact (hblocks b hb).ranked

end Evaluations

/-- Calls store evaluations with their candidates. -/
theorem rcaProgram_evaluations :
    rcaProgram.Invariant (fun _ _ _ => True) Evaluations fun _ s => PendingEvaluation s where
  arrive {db x ws ps} hG harr _ := by
    cases x with
    | upstream events analytics =>
        cases harr
        exact ⟨hG, fun s hs _ => hs, by simp⟩
    | evaluate ep =>
        cases harr
        refine ⟨hG, fun s hs _ => hs, fun p hp => ?_⟩
        rw [List.mem_singleton.mp hp]
        rfl
  look _ h := h
  abort {db s} _ _ := by
    obtain ⟨p, pending, locks, views⟩ := s
    cases p <;> rfl
  lock {db s input key next} _ h _ ho := by
    obtain ⟨p, pending, locks, views⟩ := s
    cases rcaStepped ho with
    | drafted hdraft => exact ⟨h, nodup_evaluationDraft hdraft⟩
  write {db s input ws next} _ h _ ho _ := by
    obtain ⟨p, pending, locks, views⟩ := s
    cases rcaStepped ho with
    | @allocated d =>
        obtain ⟨rfl, hdistinct⟩ := h
        exact ⟨_, _, d.ofEvaluation hdistinct _ _, rfl⟩
  call {db s input effect next} _ _ _ ho := by
    obtain ⟨p, pending, locks, views⟩ := s
    cases rcaStepped ho
  rollback {db s input next} _ _ _ ho := by
    obtain ⟨p, pending, locks, views⟩ := s
    cases rcaStepped ho <;> rfl
  commit {db s input next} hG h _ ho := by
    obtain ⟨p, pending, locks, views⟩ := s
    cases rcaStepped ho with
    | committed =>
        obtain ⟨e, rows, hrows, hpending⟩ := h
        refine ⟨?_, rfl, fun t ht _ => ht⟩
        rw [Program.view, hpending]
        exact hG.append hrows

/-! ## Versions -/

/-- The evaluations: an episode's are guarded by its version lock. -/
def evaluationTable : LockedTable RCATables RCAWrite EpisodeId RootCauseAnalysisEvaluation where
  rows db := db.analytics.evaluations
  row?
    | .appendEvaluation row => some row
    | _ => none
  guards id e := e.episodeId = id

/-- The candidates; no lock guards them. -/
def candidateTable : LockedTable RCATables RCAWrite EpisodeId CandidateCause where
  rows db := db.analytics.candidates
  row?
    | .appendCandidate row => some row
    | _ => none
  guards _ _ := false

theorem candidateTable_appends : candidateTable.Appends rcaProgram := by
  intro db w
  cases w <;> simp [candidateTable, rcaProgram, RCATables.apply]

theorem evaluationTable_appends : evaluationTable.Appends rcaProgram := by
  intro db w
  cases w <;> simp [evaluationTable, rcaProgram, RCATables.apply]

theorem nextEvaluationVersion_eq (db : RCATables) (id : EpisodeId) :
    nextEvaluationVersion db.analytics id =
      Table.maxOf (·.evaluationVersion) (evaluationTable.guarded id db) + 1 :=
  rfl

/-- The lock under which a call allocates a version. -/
def RCAProc.allocating : RCAProc → EpisodeId → Prop
  | .locked d, id => id = d.episodeId
  | _, _ => False

theorem appended_writes (d : EvaluationDraft) (version : ℕ) (now : Time) (id : EpisodeId) :
    evaluationTable.appended id (d.writes version now) =
      if d.episodeId = id then [d.evaluation version now] else [] := by
  have hrows : (d.writes version now).filterMap evaluationTable.row? =
      [d.evaluation version now] := by
    simp [EvaluationDraft.writes, evaluationTable]
  rw [LockedTable.appended, hrows, List.filter_singleton, Bool.cond_eq_ite]
  simp [evaluationTable, EvaluationDraft.evaluation]

/-- Versions are allocated under the lock of their episode. -/
theorem evaluationLog : evaluationTable.Log rcaProgram (fun _ _ => True) RCAProc.allocating
    (fun _ _ => True) fun _ rows => Table.Numbered (·.evaluationVersion) rows where
  appends := evaluationTable_appends
  arrive {db x ws ps} harr := by
    cases x with
    | upstream events analytics =>
        cases harr
        exact ⟨rfl, by simp⟩
    | evaluate ep =>
        cases harr
        refine ⟨rfl, fun p hp => ?_⟩
        rw [List.mem_singleton.mp hp]
        exact ⟨fun _ => id, fun _ => trivial⟩
  error p := by cases p <;> exact ⟨fun _ => id, fun _ => trivial⟩
  later_refl _ := trivial
  later_trans _ _ := trivial
  known _ _ _ := trivial
  later_arrive _ _ := trivial
  later_commit _ _ := trivial
  step {db s input o} hrows _ _ _ hΦ ho := by
    obtain ⟨p, pending, locks, views⟩ := s
    cases rcaStepped ho with
    | drafted => exact ⟨fun _ hkey => .inl hkey, trivial⟩
    | @allocated d =>
        intro _
        refine ⟨fun id hid => ?_, fun _ => False.elim, fun id => ?_, trivial⟩
        · rw [appended_writes, if_neg]
          exact fun heq => hid heq.symm
        · rw [appended_writes]
          split
          · rename_i heq
            subst heq
            refine (hΦ d.episodeId).snoc ?_
            rw [← (hΦ d.episodeId).maxOf_eq, ← hrows d.episodeId rfl 0, ← nextEvaluationVersion_eq]
            rfl
          · rw [List.append_nil]
            exact hΦ id
    | _ => exact ⟨fun _ => id, fun _ => trivial⟩

/-! ## Constraints -/

/-- Only a row of the same key makes a row violate a constraint. -/
theorem rcaConstraints : Program.Constraints rcaProgram RCAWrite.clashes fun _ => True where
  violates_apply db a b := by
    cases a <;> cases b <;>
      simp [rcaProgram, RCATables.violates, RCATables.apply, RCAWrite.clashes]
  clashes := id
  keep _ _ := trivial

theorem sameKey_eq_false {a b : RootCauseAnalysisEvaluation}
    (ha : a.evaluationId = ⟨a.episodeId, a.evaluationVersion⟩)
    (hb : b.evaluationId = ⟨b.episodeId, b.evaluationVersion⟩)
    (h : a.episodeId = b.episodeId → a.evaluationVersion ≠ b.evaluationVersion) :
    a.sameKey b = false := by
  simp only [RootCauseAnalysisEvaluation.sameKey, Bool.or_eq_false_iff, decide_eq_false_iff_not,
    Bool.and_eq_false_iff]
  refine ⟨fun heq => ?_, ?_⟩
  · rw [ha, hb, EvaluationId.mk.injEq] at heq
    exact h heq.1 heq.2
  · by_cases hid : a.episodeId = b.episodeId
    · exact .inr (h hid)
    · exact .inl hid

/-- A draft with the next version violates no constraint. -/
theorem writes_violatesAny {db : RCATables} (h : Evaluations db) {d : EvaluationDraft}
    (hdistinct : (d.qualified.map (·.segment)).Nodup) (now : Time) :
    rcaProgram.violatesAny db
      (d.writes (nextEvaluationVersion db.analytics d.episodeId) now) = false := by
  generalize hversion : nextEvaluationVersion db.analytics d.episodeId = version
  have hfresh : ∀ e ∈ db.analytics.evaluations, e.episodeId = d.episodeId →
      e.evaluationVersion ≠ version := by
    intro e he hid
    rw [← hversion]
    exact Table.maxOf_succ_fresh (List.mem_filter.mpr ⟨he, by simpa using hid⟩)
  have hrows := d.ofEvaluation hdistinct version now
  rw [rcaConstraints.violatesAny_eq_false]
  refine ⟨fun w hw => ?_, ?_⟩
  · rcases List.mem_cons.mp hw with rfl | hw
    · refine List.any_eq_false.mpr fun e he => ?_
      simp [sameKey_eq_false (h.id_eq he) hrows.id (hfresh e he)]
    · obtain ⟨c, hc, rfl⟩ := List.mem_map.mp hw
      refine List.any_eq_false.mpr fun c' hc' => ?_
      rw [decide_eq_true_eq]
      intro heq
      obtain ⟨e, he, hid⟩ := h.owner hc'
      have hown : e.evaluationId = ⟨d.episodeId, version⟩ :=
        hid.trans ((congrArg Prod.fst heq).trans (hrows.owner c hc))
      rw [h.id_eq he, EvaluationId.mk.injEq] at hown
      exact hfresh e he hown.1 hown.2
  · refine List.pairwise_cons.mpr ⟨fun w hw => ?_, ?_⟩
    · obtain ⟨c, -, rfl⟩ := List.mem_map.mp hw
      rfl
    · rw [List.pairwise_map]
      refine (List.pairwise_map.mp hrows.ranked.distinct).imp fun hne => ?_
      exact decide_eq_false fun heq => hne (congrArg Prod.snd heq)

/-! ## Runs -/

section Runs
variable {as : List RCAAction} {w : RCAWorld}

theorem rcaRun_evaluations (h : rcaRun as = some w) :
    rcaProgram.Good Evaluations (fun _ s => PendingEvaluation s) w :=
  rcaProgram_evaluations.exec_true (.empty ⟨[], by simp, rfl, rfl⟩) h

theorem rcaRun_versions (h : rcaRun as = some w) (id : EpisodeId) :
    Table.Numbered (·.evaluationVersion) (w.db.evaluationsOf id) :=
  (evaluationLog.invariant.exec_true (.empty fun _ => Table.Numbered.nil _) h).store id

/-- A call that holds the version lock violates no constraint. -/
theorem rcaRun_not_raises (h : rcaRun as = some w) (a : RCAAction) :
    rcaProgram.raises w a = false := by
  cases a with
  | advance i clock =>
      simp only [Program.raises]
      split
      · rfl
      · rename_i s hs
        split
        · rename_i ws next ho
          have hmem := List.mem_of_getElem? hs
          have hgood := rcaRun_evaluations h
          have hpending := hgood.session s hmem
          have hknown := (evaluationLog.invariant.exec_true
            (.empty fun _ => Table.Numbered.nil _) h).session s hmem
          obtain ⟨p, pending, locks, views⟩ := s
          cases rcaStepped ho with
          | @allocated d =>
              obtain ⟨rfl, hdistinct⟩ := hpending
              -- the version is the next one of what the call sees, which is all there is
              have hversion : nextEvaluationVersion
                  (rcaProgram.reads w.db ⟨.locked d, [], locks, views⟩ 0).analytics d.episodeId =
                    nextEvaluationVersion w.db.analytics d.episodeId := by
                rw [nextEvaluationVersion_eq, hknown.reads d.episodeId rfl 0]
                rfl
              rw [hversion]
              exact writes_violatesAny hgood.store hdistinct clock
        · rfl
  | _ => rfl

/-- In every interleaving of calls: the versions of an episode are `1, 2, …`; no call raises
on a constraint; the candidates of every stored evaluation are ranked, and every candidate
is of one; and stored rows never change. -/
theorem evaluations_log (h : rcaRun as = some w) :
    (∀ id, Table.Numbered (·.evaluationVersion) (w.db.evaluationsOf id)) ∧
    (¬Run.Occurs rcaProgram.worldStep ⟨{}, [], []⟩ as fun u a => rcaProgram.raises u a = true) ∧
    (∀ e ∈ w.db.analytics.evaluations, Ranked (w.db.candidatesOf e.evaluationId)) ∧
    (∀ c ∈ w.db.analytics.candidates,
      ∃ e ∈ w.db.analytics.evaluations, e.evaluationId = c.evaluationId) ∧
    (∀ as' w', Run.exec rcaProgram.worldStep w as' = some w' →
      w.db.analytics.evaluations <+: w'.db.analytics.evaluations ∧
      w.db.analytics.candidates <+: w'.db.analytics.candidates) := by
  have hgood := rcaRun_evaluations h
  refine ⟨rcaRun_versions h, ?_, fun e he => hgood.store.ranked (rcaRun_versions h) he,
    fun c hc => hgood.store.owner hc, fun as' w' hrun => ?_⟩
  · rintro ⟨as₁, a, as₂, u, rfl, hu, hraises⟩
    rw [rcaRun_not_raises hu a] at hraises
    cases hraises
  · exact ⟨evaluationTable_appends.prefix_exec hrun, candidateTable_appends.prefix_exec hrun⟩

end Runs

namespace EvaluationsExample

open DigestExample (database episode)

/-- Two calls evaluate an episode; the second has read everything before the first one
commits. -/
def overlap : List RCAAction :=
  [.arrive (.upstream (database 11).events (database 11).analytics),
    .arrive (.evaluate episode), .arrive (.evaluate episode), .advance 0 1] ++
    List.replicate 7 (.look 1) ++
    [.advance 0 2, .advance 0 3, .advance 1 4, .advance 1 5, .advance 1 6]

end EvaluationsExample

open DigestExample (episode) in
open EvaluationsExample in
theorem evaluations_log_overlap : ∃ w, rcaRun overlap = some w ∧
    (w.db.evaluationsOf episode.episodeId).map (·.evaluationVersion) = [1, 2] ∧
    (∀ e ∈ w.db.analytics.evaluations, w.db.candidatesOf e.evaluationId ≠ []) ∧
    ∀ e ∈ w.db.analytics.evaluations, Ranked (w.db.candidatesOf e.evaluationId) := by
  have hrun : ((rcaRun overlap).map fun w => decide (
      (w.db.evaluationsOf episode.episodeId).map (·.evaluationVersion) = [1, 2] ∧
      ∀ e ∈ w.db.analytics.evaluations, w.db.candidatesOf e.evaluationId ≠ [])) = some true := by
    decide +kernel
  obtain ⟨w, hw, hfacts⟩ := Option.map_eq_some_iff.mp hrun
  obtain ⟨hversions, hcandidates⟩ := of_decide_eq_true hfacts
  exact ⟨w, hw, hversions, hcandidates, (evaluations_log hw).2.2.1⟩

end RevenueRecovery
