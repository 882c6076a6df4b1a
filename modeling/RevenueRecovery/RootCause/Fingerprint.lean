import Mathlib.Data.String.Basic
import Mathlib.Tactic.Linarith
import RevenueRecovery.RootCause.Baseline

/-!
# What the input fingerprint of an evaluation determines

The fingerprint digests the episode, its window, the failures and transactions of the
window as a whole, and the historical windows of every segment present in it. It
determines the historical failure rate of each segment. It does not digest how the
window's transactions are spread over the segments, nor the global windows the
episode-level baseline is taken from; two states of equal fingerprints have the same
diagnosis exactly when they agree in these, for the segments that matter
(`sameDiagnosis_iff`). States of one database do (`InputsAgree.of_prefix`).

## Main definitions
* `evaluateFromScratch` : an evaluation of an episode that was never evaluated.
* `SameFingerprint`, `SameDiagnosis` : two evaluations compared.
* `Significant` : the counts of a segment make it a candidate cause.
* `SegmentsAgree` : the undigested inputs agree where they matter.
-/
namespace RevenueRecovery

/-! ## Evaluations to compare -/

/-- Evaluate an episode as if it had never been evaluated. -/
def evaluateFromScratch (db : Database) (ep : DegradationEpisode) (now : Time) :
    Except ServiceError AnalyticsTables :=
  evaluateEpisode db.events { db.analytics with evaluations := [], candidates := [] } ep now

/-- The evaluations digested the same inputs. -/
def SameFingerprint (tables tables' : AnalyticsTables) : Prop :=
  tables.evaluations.map (·.inputFingerprint) = tables'.evaluations.map (·.inputFingerprint)

/-- The evaluations have the same classification and the same ranked candidates, with
their figures. -/
def SameDiagnosis (tables tables' : AnalyticsTables) : Prop :=
  tables.evaluations.map (·.classification) = tables'.evaluations.map (·.classification) ∧
    tables.candidates = tables'.candidates

instance (tables tables' : AnalyticsTables) : Decidable (SameFingerprint tables tables') :=
  inferInstanceAs (Decidable (_ = _))

instance (tables tables' : AnalyticsTables) : Decidable (SameDiagnosis tables tables') :=
  inferInstanceAs (Decidable (_ ∧ _))

/-- The analysis window of an episode in a database. -/
def analysisWindow (db : Database) (ep : DegradationEpisode) : Except ServiceError (Time × Time) :=
  computeAnalysisWindow ep.startedAtWindow ep.endedAtWindow
    (getLatestBadWindowStart db.analytics.signals ep) ep.status

section Inputs
variable (db : Database) (window : Time × Time)

def terminalEventsOf : List PaymentEvent := terminalEventsInWindow db.events window

/-- The terminal events of a segment in the window. -/
def segmentEvents (fieldName value : String) : List PaymentEvent :=
  (terminalEventsOf db window).filter fun e => eventAttribute e fieldName = some value

/-- The windows a segment's baseline is taken from. -/
def historicalWindowsOf (fieldName value : String) : List PaymentHealthSnapshot :=
  (getHistSnapshotForDim db.analytics.snapshots (getAllHistoricalStarts window.1 window.2)
    fieldName value).filter (·.validForBaseline)

/-- The historical failure rate of a segment, when it has enough windows. -/
def historicalRate (fieldName value : String) : Option ℚ :=
  if (historicalWindowsOf db window fieldName value).length ≥ minValidHistoricalWindows then
    computeVolumeWeightedFailureRate (historicalWindowsOf db window fieldName value)
  else none

/-- The failures of the window in excess of the global baseline. -/
def netExcess : ℚ :=
  (episodeTotals db.analytics.snapshots (terminalEventsOf db window)
    (getAllHistoricalStarts window.1 window.2)).episodeTotalExcessFailures

/-- The segment has a baseline, and its excess over it is large enough in itself and as a
share of the net excess. -/
def Significant (fieldName value : String) : Prop :=
  let failures := failureCount (segmentEvents db window fieldName value)
  ∃ rate, historicalRate db window fieldName value = some rate ∧
    minFailuresForRcaEvaluation ≤ failures ∧
    0 < (failures : ℚ) - (segmentEvents db window fieldName value).length * rate ∧
    0 < netExcess db window ∧
    minContributionThreshold ≤
      ((failures : ℚ) - (segmentEvents db window fieldName value).length * rate) /
        netExcess db window

/-- The candidates an evaluation computes. -/
def structuralResults : List StructuralResult :=
  evaluateStructuralCandidates db.analytics.snapshots (terminalEventsOf db window)
    (getAllHistoricalStarts window.1 window.2)

/-- The historical windows it digests. -/
def digestedWindows : List HistoricalWindow :=
  (structuralResults db window).flatMap (·.histTuples)

/-- The candidates that qualify. -/
def qualifiedCandidates : List QualifiedCandidate :=
  (structuralResults db window).filterMap (qualifyCandidate (netExcess db window))

/-- The class an evaluation with enough failures assigns. -/
def classificationOf : RCAClassification :=
  if netExcess db window ≤ 0 then .unknown
  else if qualifiedCandidates db window = [] then .systemic
  else .segmentSpecific

end Inputs

/-- The inputs that are not digested agree where they matter: both states have net excess
failures or neither has, and a segment that is significant in one of them has the same
failures, the same transactions unless its baseline is free of failures, and the same net
excess to be compared with. -/
def SegmentsAgree (db db' : Database) (window : Time × Time) : Prop :=
  (0 < netExcess db window ↔ 0 < netExcess db' window) ∧
  ∀ d ∈ structuralDimensions, ∀ value,
    Significant db window d.2 value ∨ Significant db' window d.2 value →
      failureCount (segmentEvents db window d.2 value) =
        failureCount (segmentEvents db' window d.2 value) ∧
      ((segmentEvents db window d.2 value).length = (segmentEvents db' window d.2 value).length ∨
        historicalRate db window d.2 value = some 0) ∧
      netExcess db window = netExcess db' window

/-- They agree whenever the evaluation looks at the segments. -/
def InputsAgree (ep : DegradationEpisode) (db db' : Database) : Prop :=
  ep.status ≠ .invalidated → ∀ window, analysisWindow db ep = .ok window →
    minFailuresForRcaEvaluation ≤ failureCount (terminalEventsOf db window) →
      SegmentsAgree db db' window

/-! ## What an evaluation appends -/

/-- The rows of the ranked candidates. -/
def candidateRows (evaluationId : EvaluationId) (qualified : List QualifiedCandidate) :
    List CandidateCause :=
  (rankCandidates qualified).mapIdx fun i c => candidateRow evaluationId (i + 1) c

/-- What an evaluation from scratch can be. -/
inductive Evaluated (db : Database) (ep : DegradationEpisode) : AnalyticsTables → Prop
  | invalidated {tables} (hstatus : ep.status = .invalidated)
      (hfingerprint : tables.evaluations.map (·.inputFingerprint) =
        [computeInputFingerprint ep
          (ep.startedAtWindow, ep.startedAtWindow + Time.minutes 5) 0 0 []])
      (hclass : tables.evaluations.map (·.classification) = [.unknown])
      (hcandidates : tables.candidates = []) : Evaluated db ep tables
  | fewFailures {tables window} (hstatus : ep.status ≠ .invalidated)
      (hwindow : analysisWindow db ep = .ok window)
      (hfew : failureCount (terminalEventsOf db window) < minFailuresForRcaEvaluation)
      (hfingerprint : tables.evaluations.map (·.inputFingerprint) =
        [computeInputFingerprint ep window (failureCount (terminalEventsOf db window))
          (terminalEventsOf db window).length []])
      (hclass : tables.evaluations.map (·.classification) = [.unknown])
      (hcandidates : tables.candidates = []) : Evaluated db ep tables
  | classified {tables window} (hstatus : ep.status ≠ .invalidated)
      (hwindow : analysisWindow db ep = .ok window)
      (hmany : minFailuresForRcaEvaluation ≤ failureCount (terminalEventsOf db window))
      (hfingerprint : tables.evaluations.map (·.inputFingerprint) =
        [computeInputFingerprint ep window (failureCount (terminalEventsOf db window))
          (terminalEventsOf db window).length (digestedWindows db window)])
      (hclass : tables.evaluations.map (·.classification) = [classificationOf db window])
      (hcandidates : tables.candidates =
        candidateRows ⟨ep.episodeId, 1⟩ (qualifiedCandidates db window)) : Evaluated db ep tables

section
variable {db : Database} {ep : DegradationEpisode} {now : Time}

private theorem unchangedInputs_nil (tables : AnalyticsTables) (fingerprint : RCAFingerprint) :
    unchangedInputs { tables with evaluations := [], candidates := [] } fingerprint = false :=
  rfl

/-- A candidate qualifies by its excess, its failures and its contribution. -/
theorem qualifyCandidate_eq_some {excess : ℚ} {r : StructuralResult} {c : QualifiedCandidate} :
    qualifyCandidate excess r = some c ↔
      r.baselineSufficient = true ∧ 0 < r.excessSegmentFailures ∧ 0 < excess ∧
        minFailuresForRcaEvaluation ≤ r.actualSegmentFailures ∧
        minContributionThreshold ≤ r.excessSegmentFailures / excess ∧
        c = ⟨r, r.excessSegmentFailures / excess⟩ := by
  unfold qualifyCandidate computeExcessFailureContribution
  by_cases hbaseline : r.baselineSufficient = true
  · by_cases hexcess : r.excessSegmentFailures ≤ 0
    · simp [hbaseline, hexcess]
    · have hpos : 0 < r.excessSegmentFailures := lt_of_not_ge hexcess
      by_cases htotal : excess ≤ 0
      · simp [hbaseline, hexcess, htotal]
      · have htotal' : 0 < excess := lt_of_not_ge htotal
        simp only [hbaseline, hexcess, htotal, Bool.not_true, decide_false, Bool.or_self,
          Bool.false_eq_true, if_false, hpos, htotal', true_and, ge_iff_le]
        constructor
        · intro h
          split at h
          · rename_i hthresholds
            cases h
            exact ⟨hthresholds.1, hthresholds.2, rfl⟩
          · cases h
        · rintro ⟨hfailures, hcontribution, rfl⟩
          rw [if_pos ⟨hfailures, hcontribution⟩]
  · simp [hbaseline]

/-- Without net excess failures nothing qualifies. -/
theorem filterMap_qualifyCandidate_eq_nil {excess : ℚ} (h : excess ≤ 0)
    (results : List StructuralResult) : results.filterMap (qualifyCandidate excess) = [] := by
  refine List.filterMap_eq_nil_iff.mpr fun r _ => Option.eq_none_iff_forall_ne_some.mpr ?_
  intro c hc
  exact absurd (qualifyCandidate_eq_some.mp hc).2.2.1 (not_lt_of_ge h)

/-- The rows of a first evaluation. -/
private theorem classifyEpisode_nil (tables : AnalyticsTables) (window : Time × Time)
    (fingerprint : RCAFingerprint) (totals : EpisodeTotals) (results : List StructuralResult) :
    let tables' := classifyEpisode { tables with evaluations := [], candidates := [] } ep window
      fingerprint totals results now
    let qualified := results.filterMap (qualifyCandidate totals.episodeTotalExcessFailures)
    tables'.evaluations.map (·.inputFingerprint) = [fingerprint] ∧
      tables'.evaluations.map (·.classification) =
        [if totals.episodeTotalExcessFailures ≤ 0 then .unknown
          else if qualified = [] then .systemic else .segmentSpecific] ∧
      tables'.candidates = candidateRows ⟨ep.episodeId, 1⟩ qualified := by
  intro tables' qualified
  by_cases hexcess : totals.episodeTotalExcessFailures ≤ 0
  · have hnil : qualified = [] := filterMap_qualifyCandidate_eq_nil hexcess results
    simp only [tables', classifyEpisode, if_pos hexcess, hnil]
    exact ⟨rfl, rfl, rfl⟩
  · simp only [tables', classifyEpisode, if_neg hexcess]
    exact ⟨rfl, rfl, rfl⟩

theorem evaluated {tables : AnalyticsTables} (h : evaluateFromScratch db ep now = .ok tables) :
    Evaluated db ep tables := by
  unfold evaluateFromScratch evaluateEpisode at h
  split at h
  · rename_i hstatus
    cases h
    exact .invalidated hstatus rfl rfl rfl
  · rename_i hstatus
    simp only [bind, Except.bind, pure, Except.pure] at h
    split at h
    · cases h
    · rename_i window hwindow
      split at h
      · rename_i hfew
        cases h
        exact .fewFailures hstatus hwindow hfew rfl rfl rfl
      · rename_i hmany
        rw [unchangedInputs_nil] at h
        cases h
        obtain ⟨hfingerprint, hclass, hcandidates⟩ := classifyEpisode_nil db.analytics window _ _ _
        exact .classified hstatus hwindow (Nat.not_lt.mp hmany) hfingerprint hclass hcandidates

end

/-! ## The segments of a window -/

/-- The segments evaluated, in order: a dimension with its field, and a value of it. -/
def segmentKeys (terminalEvents : List PaymentEvent) : List ((String × String) × String) :=
  structuralDimensions.flatMap fun d =>
    ((terminalEvents.filterMap fun e => eventAttribute e d.2).dedup.insertionSort (· ≤ ·)).map
      fun value => (d, value)

/-- The figures of a segment. -/
def segmentResult (db : Database) (window : Time × Time) (k : (String × String) × String) :
    StructuralResult :=
  evaluateStructuralCandidate db.analytics.snapshots (terminalEventsOf db window)
    (getAllHistoricalStarts window.1 window.2) k.1.1 k.1.2 k.2

theorem structuralDimensions_eq_of_fst : ∀ d ∈ structuralDimensions, ∀ d' ∈ structuralDimensions,
    d.1 = d'.1 → d = d' := by
  decide

theorem mem_segmentKeys {terminalEvents : List PaymentEvent} {k : (String × String) × String} :
    k ∈ segmentKeys terminalEvents ↔
      k.1 ∈ structuralDimensions ∧ ∃ e ∈ terminalEvents, eventAttribute e k.1.2 = some k.2 := by
  obtain ⟨d, value⟩ := k
  simp only [segmentKeys, List.mem_flatMap, List.mem_map, List.mem_insertionSort, List.mem_dedup,
    List.mem_filterMap, Prod.mk.injEq]
  constructor
  · rintro ⟨d', hd, value', hvalue, rfl, rfl⟩
    exact ⟨hd, hvalue⟩
  · rintro ⟨hd, hvalue⟩
    exact ⟨d, hd, value, hvalue, rfl, rfl⟩

/-- The segments have distinct names. -/
theorem nodup_segmentKeys (terminalEvents : List PaymentEvent) :
    ((segmentKeys terminalEvents).map fun k => (k.1.1, k.2)).Nodup := by
  rw [segmentKeys, List.map_flatMap, List.nodup_flatMap]
  refine ⟨fun d _ => ?_, ?_⟩
  · rw [List.map_map]
    refine List.Nodup.map (fun a b hab => (Prod.mk.inj hab).2) ?_
    exact (Table.sortedKeys_pairwise _).imp ne_of_lt
  · have hdims : structuralDimensions.Pairwise fun d d' => d.1 ≠ d'.1 := by decide
    refine hdims.imp fun hne name hmem hmem' => ?_
    simp only [List.map_map, List.mem_map, Function.comp_apply] at hmem hmem'
    obtain ⟨value, -, rfl⟩ := hmem
    obtain ⟨value', -, heq⟩ := hmem'
    exact hne (Prod.mk.inj heq).1.symm

section Segments
variable {db db' : Database} {window : Time × Time} {k : (String × String) × String}

theorem structuralResults_eq :
    structuralResults db window =
      (segmentKeys (terminalEventsOf db window)).map (segmentResult db window) := by
  rw [segmentKeys, List.map_flatMap]
  simp only [List.map_map]
  rfl

/-- The name of a digested window's segment. -/
private theorem segment_of_histTuples {t : HistoricalWindow}
    (h : t ∈ (segmentResult db window k).histTuples) : (t.dimension, t.value) = (k.1.1, k.2) := by
  obtain ⟨s, -, rfl⟩ := List.mem_map.mp h
  rfl

/-- The digested windows of a segment present in the window are the ones its baseline is
taken from. -/
theorem digestedWindows_filter (hk : k ∈ segmentKeys (terminalEventsOf db window)) :
    (digestedWindows db window).filter (fun t => (t.dimension, t.value) = (k.1.1, k.2)) =
      (segmentResult db window k).histTuples := by
  rw [digestedWindows, structuralResults_eq, List.flatMap_map]
  exact Table.filter_flatMap_block (nodup_segmentKeys _)
    (fun _ _ _ ht => segment_of_histTuples ht) hk

/-- The digested windows of a segment, from its historical ones. -/
theorem histTuples_segmentResult : (segmentResult db window k).histTuples =
    (historicalWindowsOf db window k.1.2 k.2).map fun s =>
      ⟨s.windowStart, s.failedTransactionCount, s.transactionCount, k.1.1, k.2⟩ :=
  rfl

/-- The historical rate follows from the digested windows of the segment. -/
theorem historicalRate_of_perm
    (h : (segmentResult db window k).histTuples.Perm (segmentResult db' window k).histTuples) :
    historicalRate db window k.1.2 k.2 = historicalRate db' window k.1.2 k.2 := by
  rw [histTuples_segmentResult, histTuples_segmentResult] at h
  have hlength : (historicalWindowsOf db window k.1.2 k.2).length =
      (historicalWindowsOf db' window k.1.2 k.2).length := by
    simpa using h.length_eq
  have hfailures := (h.map (·.failures)).sum_nat
  have htransactions := (h.map (·.transactions)).sum_nat
  simp only [List.map_map] at hfailures htransactions
  unfold historicalRate computeVolumeWeightedFailureRate
  rw [hlength]
  congr 2

/-- A segment with a baseline has historical windows. -/
theorem exists_histTuple {r : ℚ} (h : historicalRate db window k.1.2 k.2 = some r) :
    ∃ t, t ∈ (segmentResult db window k).histTuples := by
  unfold historicalRate at h
  split at h
  · rename_i henough
    rw [histTuples_segmentResult]
    have hpos : 0 < (historicalWindowsOf db window k.1.2 k.2).length :=
      lt_of_lt_of_le (by decide : 0 < minValidHistoricalWindows) henough
    obtain ⟨s, hs⟩ := List.exists_mem_of_length_pos hpos
    exact ⟨_, List.mem_map_of_mem hs⟩
  · cases h

variable (hperm : (digestedWindows db window).Perm (digestedWindows db' window))
include hperm

/-- A segment with a baseline that is present in one state is present in the other. -/
theorem mem_segmentKeys_of_perm (hk : k ∈ segmentKeys (terminalEventsOf db window)) {r : ℚ}
    (h : historicalRate db window k.1.2 k.2 = some r) :
    k ∈ segmentKeys (terminalEventsOf db' window) := by
  obtain ⟨t, ht⟩ := exists_histTuple h
  have hdigested : t ∈ digestedWindows db' window := by
    refine hperm.subset ?_
    rw [digestedWindows, structuralResults_eq, List.flatMap_map]
    exact List.mem_flatMap.mpr ⟨k, hk, ht⟩
  rw [digestedWindows, structuralResults_eq, List.flatMap_map] at hdigested
  obtain ⟨k', hk', ht'⟩ := List.mem_flatMap.mp hdigested
  have hname := (segment_of_histTuples ht).symm.trans (segment_of_histTuples ht')
  obtain ⟨hdim, hvalue⟩ := Prod.mk.inj hname
  have hd := structuralDimensions_eq_of_fst _ (mem_segmentKeys.mp hk).1 _
    (mem_segmentKeys.mp hk').1 hdim
  rwa [Prod.ext hd hvalue]

/-- The digested windows determine the historical rate of a segment with a baseline. -/
theorem historicalRate_eq (hk : k ∈ segmentKeys (terminalEventsOf db window)) {r : ℚ}
    (h : historicalRate db window k.1.2 k.2 = some r) :
    historicalRate db' window k.1.2 k.2 = some r := by
  have hk' := mem_segmentKeys_of_perm hperm hk h
  rw [← h]
  refine (historicalRate_of_perm ?_).symm
  rw [← digestedWindows_filter hk, ← digestedWindows_filter hk']
  exact hperm.filter _

omit hperm

/-! ## The candidates of a window -/

/-- A structural result without the windows its baseline was taken from. -/
def StructuralResult.figures (r : StructuralResult) : StructuralResult :=
  { r with historicalWindows := [] }

/-- A candidate by its figures. -/
def QualifiedCandidate.figures (c : QualifiedCandidate) : QualifiedCandidate :=
  { c with result := c.result.figures }

theorem qualifyCandidate_figures (excess : ℚ) (r : StructuralResult) :
    qualifyCandidate excess r.figures = (qualifyCandidate excess r).map (·.figures) := by
  refine Option.ext fun c => ?_
  rw [qualifyCandidate_eq_some, Option.map_eq_some_iff]
  constructor
  · rintro ⟨hbaseline, hexcess, htotal, hfailures, hcontribution, rfl⟩
    exact ⟨⟨r, r.excessSegmentFailures / excess⟩,
      qualifyCandidate_eq_some.mpr ⟨hbaseline, hexcess, htotal, hfailures, hcontribution, rfl⟩, rfl⟩
  · rintro ⟨c, hc, rfl⟩
    obtain ⟨hbaseline, hexcess, htotal, hfailures, hcontribution, rfl⟩ :=
      qualifyCandidate_eq_some.mp hc
    exact ⟨hbaseline, hexcess, htotal, hfailures, hcontribution, rfl⟩

/-- The rows of the candidates depend on their figures only. -/
theorem candidateRows_congr {evaluationId : EvaluationId} {cs cs' : List QualifiedCandidate}
    (h : cs.map (·.figures) = cs'.map (·.figures)) :
    candidateRows evaluationId cs = candidateRows evaluationId cs' := by
  have hrows : ∀ cs : List QualifiedCandidate, candidateRows evaluationId cs =
      candidateRows evaluationId (cs.map (·.figures)) := by
    intro cs
    have hranked : (rankCandidates cs).map (·.figures) = rankCandidates (cs.map (·.figures)) :=
      List.map_insertionSort _ _ _ _ fun _ _ _ _ => Iff.rfl
    unfold candidateRows
    rw [← hranked]
    refine List.ext_getElem? fun i => ?_
    simp only [List.getElem?_mapIdx, List.getElem?_map, Option.map_map]
    rfl
  rw [hrows cs, hrows cs', h]

/-- The candidate a segment yields, by its figures. -/
def segmentCandidate (db : Database) (window : Time × Time) (k : (String × String) × String) :
    Option QualifiedCandidate :=
  qualifyCandidate (netExcess db window) (segmentResult db window k).figures

theorem map_figures_qualifiedCandidates :
    (qualifiedCandidates db window).map (·.figures) =
      (segmentKeys (terminalEventsOf db window)).filterMap (segmentCandidate db window) := by
  rw [qualifiedCandidates, structuralResults_eq, List.filterMap_map, List.map_filterMap]
  refine List.filterMap_congr fun k _ => ?_
  exact (qualifyCandidate_figures _ _).symm

theorem segmentResult_of_rate {r : ℚ} (h : historicalRate db window k.1.2 k.2 = some r) :
    (segmentResult db window k).expectedSegmentFailures =
        (segmentEvents db window k.1.2 k.2).length * r ∧
      (segmentResult db window k).excessSegmentFailures =
        (failureCount (segmentEvents db window k.1.2 k.2) : ℚ) -
          (segmentEvents db window k.1.2 k.2).length * r := by
  have hexpected : (segmentResult db window k).expectedSegmentFailures =
      (historicalRate db window k.1.2 k.2).elim 0 fun r =>
        ((segmentEvents db window k.1.2 k.2).length : ℚ) * r := rfl
  have hexcess : (segmentResult db window k).excessSegmentFailures =
      (historicalRate db window k.1.2 k.2).elim 0 fun _ =>
        (failureCount (segmentEvents db window k.1.2 k.2) : ℚ) -
          (segmentResult db window k).expectedSegmentFailures := rfl
  rw [h] at hexpected hexcess
  exact ⟨hexpected, by rw [hexcess, hexpected]; rfl⟩

/-- A segment is a candidate exactly when it is significant. -/
theorem qualifyCandidate_segmentResult {c : QualifiedCandidate} :
    qualifyCandidate (netExcess db window) (segmentResult db window k) = some c ↔
      Significant db window k.1.2 k.2 ∧ c = ⟨segmentResult db window k,
        (segmentResult db window k).excessSegmentFailures / netExcess db window⟩ := by
  rw [qualifyCandidate_eq_some]
  have hbaseline : (segmentResult db window k).baselineSufficient =
      (historicalRate db window k.1.2 k.2).isSome := rfl
  have hactual : (segmentResult db window k).actualSegmentFailures =
      failureCount (segmentEvents db window k.1.2 k.2) := rfl
  rw [hbaseline, hactual]
  unfold Significant
  constructor
  · rintro ⟨hsome, hexcess, htotal, hfailures, hcontribution, rfl⟩
    obtain ⟨r, hr⟩ := Option.isSome_iff_exists.mp hsome
    rw [(segmentResult_of_rate hr).2] at hexcess hcontribution
    exact ⟨⟨r, hr, hfailures, hexcess, htotal, hcontribution⟩, rfl⟩
  · rintro ⟨⟨r, hr, hfailures, hexcess, htotal, hcontribution⟩, rfl⟩
    rw [← (segmentResult_of_rate hr).2] at hexcess hcontribution
    exact ⟨by rw [hr]; rfl, hexcess, htotal, hfailures, hcontribution, rfl⟩

theorem isSome_segmentCandidate :
    (segmentCandidate db window k).isSome ↔ Significant db window k.1.2 k.2 := by
  rw [segmentCandidate, qualifyCandidate_figures, Option.isSome_map, Option.isSome_iff_exists]
  constructor
  · rintro ⟨c, hc⟩
    exact (qualifyCandidate_segmentResult.mp hc).1
  · intro h
    exact ⟨_, qualifyCandidate_segmentResult.mpr ⟨h, rfl⟩⟩

/-- A significant segment is present in the window. -/
theorem Significant.mem_segmentKeys (h : Significant db window k.1.2 k.2)
    (hdim : k.1 ∈ structuralDimensions) : k ∈ segmentKeys (terminalEventsOf db window) := by
  obtain ⟨-, -, hfailures, -⟩ := h
  have hpos : 0 < failureCount (segmentEvents db window k.1.2 k.2) :=
    lt_of_lt_of_le (by decide : 0 < minFailuresForRcaEvaluation) hfailures
  obtain ⟨e, he, -⟩ := List.countP_pos_iff.mp hpos
  obtain ⟨hmem, hvalue⟩ := List.mem_filter.mp he
  exact RevenueRecovery.mem_segmentKeys.mpr ⟨hdim, e, hmem, by simpa using hvalue⟩

/-- The figures of a segment follow from its counts, its rate and the net excess. -/
theorem segmentCandidate_congr {r : ℚ} (hr : historicalRate db window k.1.2 k.2 = some r)
    (hr' : historicalRate db' window k.1.2 k.2 = some r)
    (hfailures : failureCount (segmentEvents db window k.1.2 k.2) =
      failureCount (segmentEvents db' window k.1.2 k.2))
    (hexpected : ((segmentEvents db window k.1.2 k.2).length : ℚ) * r =
      (segmentEvents db' window k.1.2 k.2).length * r)
    (hexcess : netExcess db window = netExcess db' window) :
    segmentCandidate db window k = segmentCandidate db' window k := by
  have hresult : (segmentResult db window k).figures = (segmentResult db' window k).figures := by
    have hfigures : ∀ d : Database, historicalRate d window k.1.2 k.2 = some r →
        (segmentResult d window k).figures =
          ⟨k.1.1, k.2, [], failureCount (segmentEvents d window k.1.2 k.2),
            (segmentEvents d window k.1.2 k.2).length * r,
            (failureCount (segmentEvents d window k.1.2 k.2) : ℚ) -
              (segmentEvents d window k.1.2 k.2).length * r, true⟩ := by
      intro d hd
      obtain ⟨hexp, hexc⟩ := segmentResult_of_rate hd
      have hbaseline : (segmentResult d window k).baselineSufficient =
          (historicalRate d window k.1.2 k.2).isSome := rfl
      rw [hd] at hbaseline
      unfold StructuralResult.figures
      rw [hexp, hexc, hbaseline]
      rfl
    rw [hfigures db hr, hfigures db' hr', hfailures, hexpected]
  rw [segmentCandidate, segmentCandidate, hresult, hexcess]

/-! ## Equal fingerprints -/

variable (hperm : (digestedWindows db window).Perm (digestedWindows db' window))
include hperm

/-- When the undigested inputs agree, the candidates have the same figures. -/
theorem SegmentsAgree.map_figures_eq (h : SegmentsAgree db db' window) :
    (qualifiedCandidates db window).map (·.figures) =
      (qualifiedCandidates db' window).map (·.figures) := by
  have hsegment : ∀ k : (String × String) × String, k.1 ∈ structuralDimensions →
      segmentCandidate db window k = segmentCandidate db' window k := by
    intro k hdim
    by_cases hsig : Significant db window k.1.2 k.2 ∨ Significant db' window k.1.2 k.2
    · obtain ⟨hfailures, htransactions, hexcess⟩ := h.2 k.1 hdim k.2 hsig
      have hrates : ∃ r, historicalRate db window k.1.2 k.2 = some r ∧
          historicalRate db' window k.1.2 k.2 = some r := by
        rcases hsig with hsig | hsig
        · obtain ⟨r, hr, -⟩ := id hsig
          exact ⟨r, hr, historicalRate_eq hperm (hsig.mem_segmentKeys hdim) hr⟩
        · obtain ⟨r, hr, -⟩ := id hsig
          exact ⟨r, historicalRate_eq hperm.symm (hsig.mem_segmentKeys hdim) hr, hr⟩
      obtain ⟨r, hr, hr'⟩ := hrates
      refine segmentCandidate_congr hr hr' hfailures ?_ hexcess
      rcases htransactions with hlength | hzero
      · rw [hlength]
      · obtain rfl : r = 0 := Option.some.inj (hr.symm.trans hzero)
        simp
    · obtain ⟨hnot, hnot'⟩ := not_or.mp hsig
      rw [← isSome_segmentCandidate, Option.not_isSome_iff_eq_none] at hnot hnot'
      rw [hnot, hnot']
  rw [map_figures_qualifiedCandidates, map_figures_qualifiedCandidates]
  simp only [segmentKeys, List.filterMap_flatMap, List.filterMap_map]
  refine List.flatMap_congr fun d hd => ?_
  -- both lists of values are increasing, and have the values that yield a candidate
  rw [show segmentCandidate db' window ∘ (fun value => (d, value)) =
      segmentCandidate db window ∘ fun value => (d, value) from
    funext fun value => (hsegment (d, value) hd).symm]
  refine Table.filterMap_sorted_congr (Table.sortedKeys_pairwise _) (Table.sortedKeys_pairwise _)
    fun value hvalue => ?_
  have hsome : (segmentCandidate db window (d, value)).isSome = true := hvalue
  have hsome' : (segmentCandidate db' window (d, value)).isSome = true := by
    rw [← hsegment (d, value) hd]
    exact hsome
  have hkey := (isSome_segmentCandidate.mp hsome).mem_segmentKeys hd
  have hkey' := (isSome_segmentCandidate.mp hsome').mem_segmentKeys hd
  have hmem := (mem_segmentKeys.mp hkey).2
  have hmem' := (mem_segmentKeys.mp hkey').2
  simp only [List.mem_insertionSort, List.mem_dedup, List.mem_filterMap]
  exact iff_of_true hmem hmem'

/-- When the candidates have the same rows, a significant segment of one state has the same
counts in the other. -/
theorem counts_eq_of_candidateRows {evaluationId : EvaluationId}
    (hrows : candidateRows evaluationId (qualifiedCandidates db window) =
      candidateRows evaluationId (qualifiedCandidates db' window))
    (hdim : k.1 ∈ structuralDimensions) (hsig : Significant db window k.1.2 k.2) :
    failureCount (segmentEvents db window k.1.2 k.2) =
        failureCount (segmentEvents db' window k.1.2 k.2) ∧
      ((segmentEvents db window k.1.2 k.2).length = (segmentEvents db' window k.1.2 k.2).length ∨
        historicalRate db window k.1.2 k.2 = some 0) ∧
      netExcess db window = netExcess db' window := by
  have hkey := hsig.mem_segmentKeys hdim
  obtain ⟨r, hr, -⟩ := id hsig
  have hr' := historicalRate_eq hperm hkey hr
  -- the segment's row is a row of the other state
  have hmem : (⟨segmentResult db window k, (segmentResult db window k).excessSegmentFailures /
      netExcess db window⟩ : QualifiedCandidate) ∈ rankCandidates (qualifiedCandidates db window) := by
    rw [rankCandidates, List.mem_insertionSort, qualifiedCandidates, structuralResults_eq,
      List.filterMap_map]
    exact List.mem_filterMap.mpr ⟨k, hkey, qualifyCandidate_segmentResult.mpr ⟨hsig, rfl⟩⟩
  obtain ⟨n, hn⟩ := List.mem_iff_getElem?.mp hmem
  have hrow : (candidateRows evaluationId (qualifiedCandidates db' window))[n]? =
      some (candidateRow evaluationId (n + 1) ⟨segmentResult db window k,
        (segmentResult db window k).excessSegmentFailures / netExcess db window⟩) := by
    rw [← hrows, candidateRows, List.getElem?_mapIdx, hn]
    rfl
  rw [candidateRows, List.getElem?_mapIdx, Option.map_eq_some_iff] at hrow
  obtain ⟨c', hc', heq⟩ := hrow
  have hmem' := List.mem_of_getElem? hc'
  rw [rankCandidates, List.mem_insertionSort, qualifiedCandidates, structuralResults_eq,
    List.filterMap_map] at hmem'
  obtain ⟨k', hk', hqualified⟩ := List.mem_filterMap.mp hmem'
  obtain ⟨hsig', rfl⟩ := qualifyCandidate_segmentResult.mp hqualified
  simp only [candidateRow, CandidateCause.mk.injEq] at heq
  obtain ⟨-, hdimension, hvalue, -, hcontribution, hfailures, hexpected, hexcess, -⟩ := heq
  have hd : k'.1 = k.1 := structuralDimensions_eq_of_fst _ (mem_segmentKeys.mp hk').1 _ hdim
    hdimension
  obtain rfl : k' = k := Prod.ext hd hvalue
  refine ⟨hfailures.symm, ?_, ?_⟩
  · rw [(segmentResult_of_rate hr).1, (segmentResult_of_rate hr').1] at hexpected
    rcases mul_eq_mul_right_iff.mp hexpected with hlength | hzero
    · exact .inl (by exact_mod_cast hlength.symm)
    · exact .inr (by rw [hr, hzero])
  · obtain ⟨r', hr'', -, hpos, htotal', -⟩ := hsig'
    rw [← (segmentResult_of_rate hr'').2] at hpos
    rw [← hexcess] at hcontribution
    obtain ⟨-, -, -, -, htotal, -⟩ := hsig
    rw [div_eq_div_iff htotal'.ne' htotal.ne', mul_right_inj' hpos.ne'] at hcontribution
    exact hcontribution

omit hperm in
theorem classificationOf_eq_unknown : classificationOf db window = .unknown ↔
    ¬0 < netExcess db window := by
  unfold classificationOf
  rw [not_lt]
  split
  · rename_i hexcess
    exact iff_of_true rfl hexcess
  · rename_i hexcess
    refine iff_of_false ?_ hexcess
    split <;> simp

/-- Two classifications of equal fingerprints agree exactly when the undigested inputs do. -/
theorem segmentsAgree_iff {evaluationId : EvaluationId} :
    (classificationOf db window = classificationOf db' window ∧
      candidateRows evaluationId (qualifiedCandidates db window) =
        candidateRows evaluationId (qualifiedCandidates db' window)) ↔
    SegmentsAgree db db' window := by
  constructor
  · rintro ⟨hclass, hrows⟩
    refine ⟨?_, fun d hd value hsig => ?_⟩
    · rw [← not_iff_not, ← classificationOf_eq_unknown, ← classificationOf_eq_unknown, hclass]
    · rcases hsig with hsig | hsig
      · exact counts_eq_of_candidateRows (k := (d, value)) hperm hrows hd hsig
      · obtain ⟨hfailures, htransactions, hexcess⟩ :=
          counts_eq_of_candidateRows (k := (d, value)) hperm.symm hrows.symm hd hsig
        have hkey := Significant.mem_segmentKeys (k := (d, value)) hsig hd
        refine ⟨hfailures.symm, htransactions.imp Eq.symm fun hzero => ?_, hexcess.symm⟩
        exact historicalRate_eq (k := (d, value)) hperm.symm hkey hzero
  · intro h
    have hfigures := h.map_figures_eq hperm
    have hempty : qualifiedCandidates db window = [] ↔ qualifiedCandidates db' window = [] := by
      rw [← List.map_eq_nil_iff (f := (·.figures)), hfigures, List.map_eq_nil_iff]
    refine ⟨?_, candidateRows_congr hfigures⟩
    unfold classificationOf
    by_cases hexcess : netExcess db window ≤ 0
    · have hexcess' : netExcess db' window ≤ 0 :=
        not_lt.mp fun hpos => not_lt_of_ge hexcess (h.1.mpr hpos)
      rw [if_pos hexcess, if_pos hexcess']
    · have hexcess' : ¬netExcess db' window ≤ 0 :=
        not_le.mpr (h.1.mp (not_le.mp hexcess))
      rw [if_neg hexcess, if_neg hexcess']
      by_cases hnil : qualifiedCandidates db window = []
      · rw [if_pos hnil, if_pos (hempty.mp hnil)]
      · rw [if_neg hnil, if_neg (fun hnil' => hnil (hempty.mpr hnil'))]

end Segments

/-- Two evaluations of equal fingerprints that look at the segments of a window. -/
structure BothClassified (db db' : Database) (ep ep' : DegradationEpisode)
    (tables tables' : AnalyticsTables) (window : Time × Time) : Prop where
  classification : tables.evaluations.map (·.classification) = [classificationOf db window]
  classification' : tables'.evaluations.map (·.classification) = [classificationOf db' window]
  candidates : tables.candidates =
    candidateRows ⟨ep.episodeId, 1⟩ (qualifiedCandidates db window)
  candidates' : tables'.candidates =
    candidateRows ⟨ep.episodeId, 1⟩ (qualifiedCandidates db' window)
  transactions : (terminalEventsOf db window).length = (terminalEventsOf db' window).length
  windows : (digestedWindows db window).Perm (digestedWindows db' window)

section Comparison
variable {db db' : Database} {ep ep' : DegradationEpisode} {now now' : Time}
  {tables tables' : AnalyticsTables}

private theorem SameFingerprint.digest (h : SameFingerprint tables tables')
    {fp fp' : RCAFingerprint} (hfp : tables.evaluations.map (·.inputFingerprint) = [fp])
    (hfp' : tables'.evaluations.map (·.inputFingerprint) = [fp']) : fp = fp' := by
  rw [SameFingerprint, hfp, hfp'] at h
  exact List.singleton_inj.mp h

theorem SameFingerprint.bothClassified (hsame : SameFingerprint tables tables')
    (h : Evaluated db ep tables) (h' : Evaluated db' ep' tables') {window : Time × Time}
    (hstatus : ep.status ≠ .invalidated) (hwindow : analysisWindow db ep = .ok window)
    (hmany : minFailuresForRcaEvaluation ≤ failureCount (terminalEventsOf db window)) :
    BothClassified db db' ep ep' tables tables' window := by
  cases h with
  | invalidated hinvalid => exact absurd hinvalid hstatus
  | @fewFailures window' _ hwindow' hfew =>
      obtain rfl : window = window' := Except.ok.inj (hwindow.symm.trans hwindow')
      exact absurd hfew (Nat.not_lt.mpr hmany)
  | @classified window' _ hwindow' _ hfp hclass hcandidates =>
      obtain rfl : window = window' := Except.ok.inj (hwindow.symm.trans hwindow')
      cases h' with
      | invalidated hstatus' hfp' =>
          exact absurd ((congrArg (·.episodeStatus) (hsame.digest hfp hfp')).trans hstatus') hstatus
      | fewFailures _ _ hfew' hfp' =>
          have hfailures := congrArg (·.episodeActualFailures) (hsame.digest hfp hfp')
          exact absurd (hmany.trans_eq hfailures) (Nat.not_le.mpr hfew')
      | @classified window' _ _ _ hfp' hclass' hcandidates' =>
          have hdigest := hsame.digest hfp hfp'
          simp only [computeInputFingerprint, RCAFingerprint.mk.injEq] at hdigest
          obtain ⟨hepisode, -, hstart, hend, -, htransactions, hwindows⟩ := hdigest
          obtain rfl : window = window' := Prod.ext hstart hend
          have hperm : (digestedWindows db window).Perm (digestedWindows db' window) :=
            (List.perm_insertionSort _ _).symm.trans
              ((List.Perm.of_eq hwindows).trans (List.perm_insertionSort _ _))
          exact ⟨hclass, hclass', hcandidates, by rw [hcandidates', hepisode], htransactions, hperm⟩

/-- Evaluations that do not look at segments have the same diagnosis. -/
theorem SameFingerprint.sameDiagnosis (hsame : SameFingerprint tables tables')
    (h : Evaluated db ep tables) (h' : Evaluated db' ep' tables')
    (hquiet : ep.status = .invalidated ∨ ∃ window, analysisWindow db ep = .ok window ∧
      failureCount (terminalEventsOf db window) < minFailuresForRcaEvaluation) :
    SameDiagnosis tables tables' := by
  cases h with
  | invalidated hstatus hfp hclass hcandidates =>
      cases h' with
      | invalidated _ _ hclass' hcandidates' =>
          exact ⟨hclass.trans hclass'.symm, hcandidates.trans hcandidates'.symm⟩
      | fewFailures _ _ _ _ hclass' hcandidates' =>
          exact ⟨hclass.trans hclass'.symm, hcandidates.trans hcandidates'.symm⟩
      | classified hstatus' _ _ hfp' =>
          have heq := congrArg (·.episodeStatus) (hsame.digest hfp hfp')
          exact absurd (heq.symm.trans hstatus) hstatus'
  | fewFailures _ _ hfew hfp hclass hcandidates =>
      cases h' with
      | invalidated _ _ hclass' hcandidates' =>
          exact ⟨hclass.trans hclass'.symm, hcandidates.trans hcandidates'.symm⟩
      | fewFailures _ _ _ _ hclass' hcandidates' =>
          exact ⟨hclass.trans hclass'.symm, hcandidates.trans hcandidates'.symm⟩
      | classified _ _ hmany' hfp' =>
          have hfailures := congrArg (·.episodeActualFailures) (hsame.digest hfp hfp')
          exact absurd (hmany'.trans_eq hfailures.symm) (Nat.not_le.mpr hfew)
  | @classified window hstatus hwindow hmany =>
      rcases hquiet with hinvalid | ⟨window', hwindow', hfew⟩
      · exact absurd hinvalid hstatus
      · obtain rfl : window = window' := Except.ok.inj (hwindow.symm.trans hwindow')
        exact absurd hfew (Nat.not_lt.mpr hmany)

/-- Evaluations of equal fingerprints have the same diagnosis exactly when the inputs the
fingerprint leaves out agree where they matter. -/
theorem sameDiagnosis_iff (h : evaluateFromScratch db ep now = .ok tables)
    (h' : evaluateFromScratch db' ep' now' = .ok tables')
    (hfingerprint : SameFingerprint tables tables') :
    SameDiagnosis tables tables' ↔ InputsAgree ep db db' := by
  have hsegments : ∀ window, ep.status ≠ .invalidated → analysisWindow db ep = .ok window →
      minFailuresForRcaEvaluation ≤ failureCount (terminalEventsOf db window) →
      (SameDiagnosis tables tables' ↔ SegmentsAgree db db' window) := by
    intro window hstatus hwindow hmany
    have hboth := hfingerprint.bothClassified (evaluated h) (evaluated h') hstatus hwindow hmany
    unfold SameDiagnosis
    rw [hboth.classification, hboth.classification', hboth.candidates, hboth.candidates',
      List.singleton_inj]
    exact segmentsAgree_iff hboth.windows
  constructor
  · intro hsame hstatus window hwindow hmany
    exact (hsegments window hstatus hwindow hmany).mp hsame
  · intro hagree
    cases evaluated h with
    | invalidated hstatus =>
        exact hfingerprint.sameDiagnosis (evaluated h) (evaluated h') (.inl hstatus)
    | @fewFailures window _ hwindow hfew =>
        exact hfingerprint.sameDiagnosis (evaluated h) (evaluated h') (.inr ⟨window, hwindow, hfew⟩)
    | @classified window hstatus hwindow hmany =>
        exact (hsegments window hstatus hwindow hmany).mpr (hagree hstatus window hwindow hmany)

/-- While a database only gains events and its global segment is the one Stage 2 writes, a
later evaluation of the same fingerprint sees the same segments. -/
theorem InputsAgree.of_prefix (hevents : db.events <+: db'.events)
    (hglobal : GlobalNamedAll db.analytics.snapshots)
    (hglobal' : GlobalNamedAll db'.analytics.snapshots)
    (h : evaluateFromScratch db ep now = .ok tables)
    (h' : evaluateFromScratch db' ep' now' = .ok tables')
    (hfingerprint : SameFingerprint tables tables') : InputsAgree ep db db' := by
  intro hstatus window hwindow hmany
  have hboth := hfingerprint.bothClassified (evaluated h) (evaluated h') hstatus hwindow hmany
  have hprefix : terminalEventsOf db window <+: terminalEventsOf db' window :=
    (hevents.filter _).filter _
  have hterminal : terminalEventsOf db window = terminalEventsOf db' window :=
    hprefix.eq_of_length hboth.transactions
  have hsegment : ∀ fieldName value,
      segmentEvents db window fieldName value = segmentEvents db' window fieldName value := by
    intro fieldName value
    rw [segmentEvents, segmentEvents, hterminal]
  have hexcess : netExcess db window = netExcess db' window := by
    simp only [netExcess, episodeTotals, hglobal.globalBaseline_eq, hglobal'.globalBaseline_eq,
      hterminal]
  exact ⟨by rw [hexcess], fun d _ value _ => ⟨by rw [hsegment], .inl (by rw [hsegment]), hexcess⟩⟩

end Comparison

/-! ## Failures of another bank -/

namespace DigestExample

/-- The start of the degraded window. -/
def t₀ : Time := Time.weeks 4

def event (i : ℕ) (eventType bank : String) (t : Time) : PaymentEvent :=
  { eventId := i, sourceSystem := razorpaySourceSystem, sourceEventId := toString i,
    paymentId := toString i, timestamp := t, eventType := eventType, currency := "INR",
    bank := some bank, amountMinorUnits := 10000, paymentStatus := "x", ingestedAt := t }

/-- Fifty captures through one bank in the same window `k` weeks earlier. -/
def history (k : ℕ) : List PaymentEvent :=
  (List.range 50).map fun i => event (100 * k + i) capturedEventType "HDFC" (t₀ - Time.weeks k)

def savedWindow (k : ℕ) (stored : List PaymentHealthSnapshot) : List PaymentHealthSnapshot :=
  calculateAndSaveWindow (history k) stored (t₀ - Time.weeks k)
    (t₀ - Time.weeks k + Time.minutes 5)

def episode : DegradationEpisode :=
  { episodeId := ⟨"GLOBAL", "ALL", t₀⟩, segmentDimension := "GLOBAL", segmentValue := "ALL",
    startedAtWindow := t₀, endedAtWindow := some (t₀ + Time.minutes 5), status := .recovered,
    peakAbsoluteDrop := 1, affectedWindowCount := 1, severity := .critical }

/-- Twenty failures in the window, the first `n` of them through the bank with a history. -/
def failures (n : ℕ) : List PaymentEvent :=
  (List.range 20).map fun i => event i failedEventType (if i < n then "HDFC" else "SBI") t₀

def database (n : ℕ) : Database :=
  { events := history 2 ++ history 1 ++ failures n
    analytics := { snapshots := savedWindow 1 (savedWindow 2 []), episodes := [episode] } }

/-- The diagnoses of two states of the episode, compared when both are evaluated. -/
def compared (db db' : Database) : Option (Bool × Bool) :=
  match evaluateFromScratch db episode 0, evaluateFromScratch db' episode 0 with
  | .ok tables, .ok tables' =>
      some (decide (SameFingerprint tables tables'), decide (SameDiagnosis tables tables'))
  | _, _ => none

theorem compared_eq_some {db db' : Database} {same diagnosis : Bool}
    (h : compared db db' = some (same, diagnosis)) :
    ∃ tables tables', evaluateFromScratch db episode 0 = .ok tables ∧
      evaluateFromScratch db' episode 0 = .ok tables' ∧
      (SameFingerprint tables tables' ↔ same = true) ∧
      (SameDiagnosis tables tables' ↔ diagnosis = true) := by
  unfold compared at h
  split at h
  · rename_i tables tables' heq heq'
    obtain ⟨rfl, rfl⟩ := Prod.mk.inj (Option.some.inj h)
    exact ⟨tables, tables', heq, heq', by simp, by simp⟩
  · cases h

/-- More of the failures are at the bank with a history. -/
theorem compared_significant :
    compared (database 20) (database 11) = some (true, false) := by
  decide +kernel

end DigestExample

open DigestExample in
/-- Equal fingerprints, and another primary candidate. -/
theorem sameFingerprint_not_sameDiagnosis : ∃ tables tables',
    evaluateFromScratch (database 20) episode 0 = .ok tables ∧
      evaluateFromScratch (database 11) episode 0 = .ok tables' ∧
      SameFingerprint tables tables' ∧ ¬SameDiagnosis tables tables' := by
  obtain ⟨tables, tables', h, h', hsame, hdiagnosis⟩ := compared_eq_some compared_significant
  exact ⟨tables, tables', h, h', hsame.mpr rfl, by rw [hdiagnosis]; simp⟩

end RevenueRecovery
