import Mathlib.Algebra.Order.Field.Rat
import RevenueRecovery.Analytics

/-!
# Stage 4: root cause analysis

An evaluation of an episode compares the failures of its analysis window with the
failure rates of the same windows in previous weeks, globally and for each value of
four structural dimensions, and classifies the episode. An evaluation whose inputs
did not change is not repeated.

## Main definitions
* `computeAnalysisWindow`, `getAllHistoricalStarts` : the windows compared.
* `evaluateStructuralCandidate` : the figures of one dimension value.
* `globalBaseline`, `EpisodeTotals` : the expected and excess failures of the episode.
* `evaluateEpisode` : the tables after an evaluation.
-/
namespace RevenueRecovery

def historicalWeeksBack : ℕ := 4
def minValidHistoricalWindows : ℕ := 2
def minBaselineVolume : ℕ := 50
def minFailuresForRcaEvaluation : ℕ := 10
def minContributionThreshold : ℚ := 30 / 100
def strongContributionThreshold : ℚ := 70 / 100
def strongFailureCountMultiplier : ℕ := 3
def moderateContributionThreshold : ℚ := 40 / 100

/-- Structural dimensions, each with the event field snapshots name it by. -/
def structuralDimensions : List (String × String) :=
  [("BANK", "bank"), ("CURRENCY", "currency"), ("PAYMENT_METHOD", "payment_method"),
    ("WALLET", "wallet")]

/-! ## Windows -/

/-- The half-open analysis window of an episode. -/
def computeAnalysisWindow (startedAtWindow : Time) (endedAtWindow latestBadWindowStart : Option Time)
    (status : EpisodeStatus) : Except ServiceError (Time × Time) :=
  match status with
  | .recovered =>
      match endedAtWindow with
      | none => .error .valueError
      | some ended => .ok (startedAtWindow, ended)
  | .active =>
      match latestBadWindowStart with
      | none => .error .valueError
      | some bad => .ok (startedAtWindow, bad + Time.minutes 5)
  | .invalidated => .ok (startedAtWindow, startedAtWindow + Time.minutes 5)

/-- The starts of the five-minute slots of a half-open window. -/
def windowSlots (windowStart windowEnd : Time) : List Time :=
  (List.range ((windowEnd - windowStart + Time.minutes 5 - 1) / Time.minutes 5).toNat).map
    fun i => windowStart + Time.minutes 5 * i

/-- The starts of the same slots in the previous weeks, each once. -/
def getAllHistoricalStarts (windowStart windowEnd : Time) : List Time :=
  ((windowSlots windowStart windowEnd).flatMap fun slot =>
    historicalStarts slot historicalWeeksBack).dedup

/-! ## Calculator -/

/-- The failures over the transactions of several windows; none without transactions. -/
def computeVolumeWeightedFailureRate (windows : List PaymentHealthSnapshot) : Option ℚ :=
  rate ((windows.map (·.failedTransactionCount)).sum) ((windows.map (·.transactionCount)).sum)

def computeExcessFailureContribution (excessSegmentFailures episodeTotalExcess : ℚ) : Option ℚ :=
  if episodeTotalExcess ≤ 0 then none else some (excessSegmentFailures / episodeTotalExcess)

def assignEvidenceStrength (contribution : ℚ) (actualSegmentFailures : ℕ) : EvidenceStrength :=
  if contribution ≥ strongContributionThreshold ∧
      actualSegmentFailures ≥ strongFailureCountMultiplier * minFailuresForRcaEvaluation then
    .strong
  else if contribution ≥ moderateContributionThreshold then .moderate
  else .weak

/-- A window counts for a baseline when its volume is sufficient. -/
def PaymentHealthSnapshot.validForBaseline (s : PaymentHealthSnapshot) : Bool :=
  !s.insufficientVolume && s.transactionCount ≥ minBaselineVolume

/-- The figures of one value of a structural dimension. -/
structure StructuralResult where
  dimension : String
  value : String
  historicalWindows : List PaymentHealthSnapshot
  actualSegmentFailures : ℕ
  expectedSegmentFailures : ℚ
  excessSegmentFailures : ℚ
  baselineSufficient : Bool
deriving DecidableEq, Repr

/-! ## Queries -/

/-- Stage 2 snapshots of a segment at historical window starts. -/
def getHistSnapshotForDim (snapshots : List PaymentHealthSnapshot) (histStarts : List Time)
    (dimension value : String) : List PaymentHealthSnapshot :=
  snapshots.filter fun s => s.windowStart ∈ histStarts ∧ s.segmentDimension = dimension ∧
    s.segmentValue = value

/-- The window of the latest bad signal at or after the episode's start. -/
def getLatestBadWindowStart (signals : List DegradationSignal) (ep : DegradationEpisode) :
    Option Time :=
  if ep.status = .recovered then none
  else (Table.latestBy (·.windowStart) (signals.filter fun s =>
    s.segmentDimension = ep.segmentDimension ∧ s.segmentValue = ep.segmentValue ∧
      s.signalType = .bad ∧ s.windowStart ≥ ep.startedAtWindow)).map (·.windowStart)

def getLatestEvaluation (evaluations : List RootCauseAnalysisEvaluation) (id : EpisodeId) :
    Option RootCauseAnalysisEvaluation :=
  Table.latestBy (·.evaluationVersion) (evaluations.filter fun r => r.episodeId = id)

/-! ## Service -/

/-- The failed events among some events. -/
def failureCount (events : List PaymentEvent) : ℕ :=
  events.countP fun e => e.eventType = failedEventType

/-- Evaluate one dimension value on the terminal events of the analysis window. -/
def evaluateStructuralCandidate (snapshots : List PaymentHealthSnapshot)
    (terminalEvents : List PaymentEvent) (histStarts : List Time)
    (dimension fieldName value : String) : StructuralResult :=
  let segEvents := terminalEvents.filter fun e => eventAttribute e fieldName = some value
  let valid := (getHistSnapshotForDim snapshots histStarts fieldName value).filter
    (·.validForBaseline)
  let failureRate :=
    if valid.length ≥ minValidHistoricalWindows then computeVolumeWeightedFailureRate valid
    else none
  let expected := failureRate.elim 0 fun r => (segEvents.length : ℚ) * r
  { dimension := dimension
    value := value
    historicalWindows := valid
    actualSegmentFailures := failureCount segEvents
    expectedSegmentFailures := expected
    excessSegmentFailures := failureRate.elim 0 fun _ => (failureCount segEvents : ℚ) - expected
    baselineSufficient := failureRate.isSome }

/-- The candidates of every structural dimension, in the order they are evaluated. -/
def evaluateStructuralCandidates (snapshots : List PaymentHealthSnapshot)
    (terminalEvents : List PaymentEvent) (histStarts : List Time) : List StructuralResult :=
  structuralDimensions.flatMap fun (dimension, fieldName) =>
    let values := (terminalEvents.filterMap fun e => eventAttribute e fieldName).dedup
    (values.insertionSort (· ≤ ·)).map
      (evaluateStructuralCandidate snapshots terminalEvents histStarts dimension fieldName)

/-- The order in which the fingerprint lists the historical windows. -/
def HistoricalWindow.le (a b : HistoricalWindow) : Bool :=
  a.windowStart < b.windowStart || (a.windowStart == b.windowStart &&
    (a.failures < b.failures || (a.failures == b.failures &&
      (a.transactions < b.transactions || (a.transactions == b.transactions &&
        (a.dimension < b.dimension || (a.dimension == b.dimension && a.value ≤ b.value)))))))

/-- The fingerprint entries of a result's historical windows. -/
def StructuralResult.histTuples (r : StructuralResult) : List HistoricalWindow :=
  r.historicalWindows.map fun s =>
    ⟨s.windowStart, s.failedTransactionCount, s.transactionCount, r.dimension, r.value⟩

def computeInputFingerprint (ep : DegradationEpisode) (window : Time × Time)
    (actualFailures transactionCount : ℕ) (tuples : List HistoricalWindow) : RCAFingerprint :=
  { episodeId := ep.episodeId
    episodeStatus := ep.status
    analysisWindowStart := window.1
    analysisWindowEnd := window.2
    episodeActualFailures := actualFailures
    episodeTransactionCount := transactionCount
    historicalWindows := tuples.insertionSort fun a b => a.le b }

/-- The global historical windows the episode's baseline is taken from. -/
def globalHistorical (snapshots : List PaymentHealthSnapshot) (histStarts : List Time) :
    List PaymentHealthSnapshot :=
  (getHistSnapshotForDim snapshots histStarts "GLOBAL" "GLOBAL").filter (·.validForBaseline)

/-- The historical baseline failure rate of the episode. -/
def globalBaseline (snapshots : List PaymentHealthSnapshot) (histStarts : List Time) :
    Option ℚ :=
  let valid := globalHistorical snapshots histStarts
  if valid.length ≥ minValidHistoricalWindows then computeVolumeWeightedFailureRate valid
  else none

/-- The episode-level figures. -/
structure EpisodeTotals where
  transactionCount : ℕ
  actualFailures : ℕ
  historicalBaselineFailureRate : Option ℚ
  expectedFailures : ℚ
  episodeTotalExcessFailures : ℚ
deriving DecidableEq, Repr

def episodeTotals (snapshots : List PaymentHealthSnapshot) (terminalEvents : List PaymentEvent)
    (histStarts : List Time) : EpisodeTotals :=
  let baseline := globalBaseline snapshots histStarts
  let expected := baseline.elim 0 fun r => (terminalEvents.length : ℚ) * r
  { transactionCount := terminalEvents.length
    actualFailures := failureCount terminalEvents
    historicalBaselineFailureRate := baseline
    expectedFailures := expected
    episodeTotalExcessFailures := max 0 ((failureCount terminalEvents : ℚ) - expected) }

/-- A result that qualifies as a candidate cause, with its contribution. -/
structure QualifiedCandidate where
  result : StructuralResult
  contribution : ℚ
deriving DecidableEq, Repr

/-- Qualify a structural result against the episode's total excess. -/
def qualifyCandidate (episodeTotalExcess : ℚ) (r : StructuralResult) :
    Option QualifiedCandidate :=
  if !r.baselineSufficient || r.excessSegmentFailures ≤ 0 then none
  else match computeExcessFailureContribution r.excessSegmentFailures episodeTotalExcess with
    | none => none
    | some contribution =>
        if r.actualSegmentFailures ≥ minFailuresForRcaEvaluation ∧
            contribution ≥ minContributionThreshold then some ⟨r, contribution⟩
        else none

/-- Contribution and failures descending, then dimension and value ascending. -/
def QualifiedCandidate.le (a b : QualifiedCandidate) : Bool :=
  a.contribution > b.contribution || (a.contribution == b.contribution &&
    (a.result.actualSegmentFailures > b.result.actualSegmentFailures ||
      (a.result.actualSegmentFailures == b.result.actualSegmentFailures &&
        (a.result.dimension < b.result.dimension ||
          (a.result.dimension == b.result.dimension && a.result.value ≤ b.result.value)))))

def rankCandidates (candidates : List QualifiedCandidate) : List QualifiedCandidate :=
  candidates.insertionSort fun a b => a.le b

/-- The row of a ranked candidate. -/
def candidateRow (evaluationId : EvaluationId) (rank : ℕ) (c : QualifiedCandidate) :
    CandidateCause :=
  { evaluationId := evaluationId
    candidateDimension := c.result.dimension
    candidateValue := c.result.value
    evidenceStrength := assignEvidenceStrength c.contribution c.result.actualSegmentFailures
    excessFailureContribution := c.contribution
    actualSegmentFailures := c.result.actualSegmentFailures
    expectedSegmentFailures := c.result.expectedSegmentFailures
    excessSegmentFailures := c.result.excessSegmentFailures
    rank := rank }

/-- Append an evaluation as the next version of its episode, with its candidates. -/
def appendEvaluation (tables : AnalyticsTables) (episodeId : EpisodeId) (window : Time × Time)
    (classification : RCAClassification) (fingerprint : RCAFingerprint) (generatedAt : Time)
    (ranked : List QualifiedCandidate) : AnalyticsTables :=
  let version := Table.maxOf (·.evaluationVersion)
    (tables.evaluations.filter fun r => r.episodeId = episodeId) + 1
  let evaluation : RootCauseAnalysisEvaluation :=
    { evaluationId := ⟨episodeId, version⟩
      episodeId := episodeId
      evaluationVersion := version
      classification := classification
      analysisWindowStart := window.1
      analysisWindowEnd := window.2
      inputFingerprint := fingerprint
      generatedAt := generatedAt }
  { tables with
    evaluations := tables.evaluations ++ [evaluation]
    candidates := tables.candidates ++
      ranked.mapIdx fun i c => candidateRow evaluation.evaluationId (i + 1) c }

/-- The latest evaluation of the episode digested the same inputs. -/
def unchangedInputs (tables : AnalyticsTables) (fingerprint : RCAFingerprint) : Bool :=
  match getLatestEvaluation tables.evaluations fingerprint.episodeId with
  | some last => last.inputFingerprint = fingerprint
  | none => false

/-- Append an `UNKNOWN` evaluation unless its inputs are unchanged. -/
def persistUnknown (tables : AnalyticsTables) (fingerprint : RCAFingerprint)
    (window : Time × Time) (generatedAt : Time) : AnalyticsTables :=
  if unchangedInputs tables fingerprint then tables
  else appendEvaluation tables fingerprint.episodeId window .unknown fingerprint generatedAt []

/-- Evaluate an episode with changed inputs and enough failures. -/
def classifyEpisode (tables : AnalyticsTables) (ep : DegradationEpisode) (window : Time × Time)
    (fingerprint : RCAFingerprint) (totals : EpisodeTotals) (results : List StructuralResult)
    (generatedAt : Time) : AnalyticsTables :=
  if totals.episodeTotalExcessFailures ≤ 0 then
    appendEvaluation tables ep.episodeId window .unknown fingerprint generatedAt []
  else
    let qualified := results.filterMap (qualifyCandidate totals.episodeTotalExcessFailures)
    let classification := if qualified = [] then .systemic else .segmentSpecific
    appendEvaluation tables ep.episodeId window classification fingerprint generatedAt
      (rankCandidates qualified)

/-- The terminal events Stages 2-4 see in a window. -/
def terminalEventsInWindow (events : List PaymentEvent) (window : Time × Time) :
    List PaymentEvent :=
  (getEventsInWindow events window.1 window.2).filter (·.isTerminal)

/-- Evaluate an episode at the wall-clock time `now`. -/
def evaluateEpisode (events : List PaymentEvent) (tables : AnalyticsTables)
    (ep : DegradationEpisode) (now : Time) : Except ServiceError AnalyticsTables :=
  if ep.status = .invalidated then
    let window := (ep.startedAtWindow, ep.startedAtWindow + Time.minutes 5)
    .ok (persistUnknown tables (computeInputFingerprint ep window 0 0 []) window now)
  else do
    let window ← computeAnalysisWindow ep.startedAtWindow ep.endedAtWindow
      (getLatestBadWindowStart tables.signals ep) ep.status
    let terminalEvents := terminalEventsInWindow events window
    let failures := failureCount terminalEvents
    if failures < minFailuresForRcaEvaluation then
      return persistUnknown tables
        (computeInputFingerprint ep window failures terminalEvents.length []) window now
    let histStarts := getAllHistoricalStarts window.1 window.2
    let results := evaluateStructuralCandidates tables.snapshots terminalEvents histStarts
    let fingerprint := computeInputFingerprint ep window failures terminalEvents.length
      (results.flatMap (·.histTuples))
    if unchangedInputs tables fingerprint then return tables
    return classifyEpisode tables ep window fingerprint
      (episodeTotals tables.snapshots terminalEvents histStarts) results now

/-! ## What an evaluation leaves alone -/

/-- The tables differ in the root cause evaluations and their candidates only. -/
structure SameDegradation (tables tables' : AnalyticsTables) : Prop where
  snapshots : tables'.snapshots = tables.snapshots
  signals : tables'.signals = tables.signals
  episodes : tables'.episodes = tables.episodes
  history : tables'.history = tables.history

theorem SameDegradation.refl (tables : AnalyticsTables) : SameDegradation tables tables :=
  ⟨rfl, rfl, rfl, rfl⟩

theorem SameDegradation.trans {tables₁ tables₂ tables₃ : AnalyticsTables}
    (h : SameDegradation tables₁ tables₂) (h' : SameDegradation tables₂ tables₃) :
    SameDegradation tables₁ tables₃ :=
  ⟨h'.snapshots.trans h.snapshots, h'.signals.trans h.signals, h'.episodes.trans h.episodes,
    h'.history.trans h.history⟩

theorem appendEvaluation_sameDegradation (tables : AnalyticsTables) (episodeId : EpisodeId)
    (window : Time × Time) (classification : RCAClassification) (fingerprint : RCAFingerprint)
    (generatedAt : Time) (ranked : List QualifiedCandidate) :
    SameDegradation tables (appendEvaluation tables episodeId window classification fingerprint
      generatedAt ranked) :=
  ⟨rfl, rfl, rfl, rfl⟩

theorem evaluateEpisode_sameDegradation {events : List PaymentEvent}
    {tables tables' : AnalyticsTables} {ep : DegradationEpisode} {now : Time}
    (h : evaluateEpisode events tables ep now = .ok tables') : SameDegradation tables tables' := by
  have hunknown : ∀ fingerprint window,
      SameDegradation tables (persistUnknown tables fingerprint window now) := by
    intro fingerprint window
    unfold persistUnknown
    split
    · exact .refl tables
    · exact appendEvaluation_sameDegradation ..
  have hclassified : ∀ window fingerprint totals results, SameDegradation tables
      (classifyEpisode tables ep window fingerprint totals results now) := by
    intro window fingerprint totals results
    unfold classifyEpisode
    split <;> exact appendEvaluation_sameDegradation ..
  unfold evaluateEpisode at h
  split at h
  · cases h
    exact hunknown _ _
  · simp only [bind, Except.bind, pure, Except.pure] at h
    split at h
    · cases h
    · split at h
      · cases h
        exact hunknown _ _
      · split at h
        · cases h
          exact .refl tables
        · cases h
          exact hclassified _ _ _ _

end RevenueRecovery
