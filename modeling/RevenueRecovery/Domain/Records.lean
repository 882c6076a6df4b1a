import RevenueRecovery.Domain.Events

/-!
# Records of Stages 2-8

The rows the stages persist. Rates, probabilities, confidences and drops are exact
rationals. A deterministic UUID is the structure of the components its name is
built from, so equal ids mean equal components; generated UUIDs are natural
numbers. A SHA-256 fingerprint is the structure of the inputs it digests.
-/
namespace RevenueRecovery

/-! ## Stage 2: health snapshots -/

/-- A row of `payment_health_snapshots`, one for each window and segment. -/
structure PaymentHealthSnapshot where
  windowStart : Time
  windowEnd : Time
  segmentDimension : String
  segmentValue : String
  transactionCount : ℕ
  successfulTransactionCount : ℕ
  failedTransactionCount : ℕ
  successRate : Option ℚ
  failureRate : Option ℚ
  totalGmvMinorUnits : ℤ
  successfulGmvMinorUnits : ℤ
  failedGmvMinorUnits : ℤ
  baselineSuccessRate : Option ℚ
  insufficientVolume : Bool
deriving DecidableEq, Repr

/-! ## Stage 3: signals and episodes -/

inductive SignalType
  | normal
  | bad
  | lowVolume
  | noBaseline
deriving DecidableEq, Repr

inductive EpisodeStatus
  | active
  | recovered
  | invalidated
deriving DecidableEq, Repr

inductive Severity
  | moderate
  | high
  | critical
deriving DecidableEq, Repr

/-- A row of `degradation_signals`. -/
structure DegradationSignal where
  segmentDimension : String
  segmentValue : String
  windowStart : Time
  evaluationVersion : ℕ
  signalType : SignalType
  baselineSuccessRate : Option ℚ
  absoluteDrop : Option ℚ
  relativeDrop : Option ℚ
  evaluationTimestamp : Time
deriving DecidableEq, Repr

/-- `uuid5` of the segment and the start of the first bad window. -/
structure EpisodeId where
  segmentDimension : String
  segmentValue : String
  firstBadWindow : Time
deriving DecidableEq, Repr

/-- A row of `degradation_episodes`. -/
structure DegradationEpisode where
  episodeId : EpisodeId
  segmentDimension : String
  segmentValue : String
  startedAtWindow : Time
  endedAtWindow : Option Time
  status : EpisodeStatus
  peakAbsoluteDrop : ℚ
  affectedWindowCount : ℕ
  severity : Severity
deriving DecidableEq, Repr

/-- A row of `episode_state_history`: what one reconciliation run stored. -/
structure EpisodeStateHistory where
  reconciliationRunId : ℕ
  episodeId : EpisodeId
  segmentDimension : String
  segmentValue : String
  status : EpisodeStatus
  severity : Severity
  effectiveStartWindow : Time
  evaluationTimestamp : Time
deriving DecidableEq, Repr

/-! ## Stage 4: root causes -/

inductive RCAClassification
  | segmentSpecific
  | systemic
  | unknown
deriving DecidableEq, Repr

inductive EvidenceStrength
  | strong
  | moderate
  | weak
deriving DecidableEq, Repr

/-- One historical window of one segment, as the fingerprint records it. -/
structure HistoricalWindow where
  windowStart : Time
  failures : ℕ
  transactions : ℕ
  dimension : String
  value : String
deriving DecidableEq, Repr

/-- The inputs digested by Stage 4's `compute_input_fingerprint`. -/
structure RCAFingerprint where
  episodeId : EpisodeId
  episodeStatus : EpisodeStatus
  analysisWindowStart : Time
  analysisWindowEnd : Time
  episodeActualFailures : ℕ
  episodeTransactionCount : ℕ
  historicalWindows : List HistoricalWindow
deriving DecidableEq, Repr

/-- `uuid5` of the episode and the evaluation version. -/
structure EvaluationId where
  episodeId : EpisodeId
  evaluationVersion : ℕ
deriving DecidableEq, Repr

/-- The keys of the audit payload that Stage 6 looks up; Stage 4 writes neither. -/
structure EvidenceAuditPayload where
  trafficMixShift : Bool := false
  unreliableDiagnosis : Bool := false
deriving DecidableEq, Repr

/-- A row of `rca_evaluations`. -/
structure RootCauseAnalysisEvaluation where
  evaluationId : EvaluationId
  episodeId : EpisodeId
  evaluationVersion : ℕ
  classification : RCAClassification
  analysisWindowStart : Time
  analysisWindowEnd : Time
  inputFingerprint : RCAFingerprint
  generatedAt : Time
  evidenceAuditPayload : EvidenceAuditPayload := {}
deriving DecidableEq, Repr

/-- A row of `rca_candidate_causes`. -/
structure CandidateCause where
  evaluationId : EvaluationId
  candidateDimension : String
  candidateValue : String
  evidenceStrength : EvidenceStrength
  excessFailureContribution : ℚ
  actualSegmentFailures : ℕ
  expectedSegmentFailures : ℚ
  excessSegmentFailures : ℚ
  rank : ℕ
deriving DecidableEq, Repr

/-! ## Stage 5: attempts and predictions -/

/-- A row of the `payment_attempts` registry. -/
structure RegisteredAttempt where
  paymentAttemptId : String
  sourceSystem : String
  providerReference : String
  triggerEventId : ℕ
deriving DecidableEq, Repr

/-- The feature vector of an attempt as of a time. -/
structure FeatureSnapshot where
  paymentMethod : Option String
  bank : Option String
  wallet : Option String
  currency : String
  amountMinorUnits : ℤ
  hourOfDay : ℕ
  dayOfWeek : ℕ
  global30mFailureRate : Option ℚ
  global24hFailureRate : Option ℚ
  paymentMethod30mFailureRate : Option ℚ
  paymentMethod24hFailureRate : Option ℚ
  bank30mFailureRate : Option ℚ
  bank24hFailureRate : Option ℚ
  wallet30mFailureRate : Option ℚ
  wallet24hFailureRate : Option ℚ
  currency30mFailureRate : Option ℚ
  currency24hFailureRate : Option ℚ
  insufficientGlobalVolume : Bool
  isInActiveDegradation : Bool
  degradationSeverity : Option Severity
  rcaClassification : Option RCAClassification
  rcaCandidateDimension : Option String
  rcaCandidateValue : Option String
  rcaEvidenceStrength : Option EvidenceStrength
  rcaExcessFailureContribution : Option ℚ
  rcaCandidateRank : Option ℕ
  rcaCandidateMatchesPaymentSegment : Option Bool
deriving DecidableEq, Repr

inductive PredictionStatus
  | predicted
  | insufficientData
  | notEligible
deriving DecidableEq, Repr

inductive RiskBand
  | low
  | elevated
  | high
deriving DecidableEq, Repr

/-- The inputs digested by Stage 5's `compute_input_fingerprint`. -/
structure PredictionFingerprint where
  paymentAttemptId : String
  predictedAt : Time
  predictionHorizon : String
  featureSnapshot : Option FeatureSnapshot
  modelName : String
  modelVersion : String
  featureSchemaVersion : String
deriving DecidableEq, Repr

/-- `uuid5` of the attempt key and the prediction version. -/
structure PredictionId where
  paymentAttemptId : String
  predictionVersion : ℕ
deriving DecidableEq, Repr

/-- A row of `failure_predictions`; an empty feature dictionary is `none`. -/
structure FailurePrediction where
  predictionId : PredictionId
  paymentAttemptId : String
  sourceSystem : String
  predictionVersion : ℕ
  predictedAt : Time
  predictionHorizon : String
  failureProbability : Option ℚ
  riskBand : Option RiskBand
  predictionStatus : PredictionStatus
  modelName : String
  modelVersion : String
  featureSchemaVersion : String
  featureSnapshot : Option FeatureSnapshot
  inputFingerprint : PredictionFingerprint
deriving DecidableEq, Repr

/-! ## Stage 6: decisions -/

inductive DecisionType
  | noAction
  | monitor
  | act
deriving DecidableEq, Repr

inductive GateVerdict
  | passed
  | failedKillSwitch
  | failedStage5Unavailable
  | failedStage5Ineligible
  | failedTerminalOutcomeIngested
  | failedEpisodeInvalidated
  | failedUnreliableDiagnosis
  | failedGlobalRateLimit
  | failedRouteCooldown
  | failedInvalidAmount
  | failedNoEligibleRoutes
  | failedUnsupportedCostCurrency
deriving DecidableEq, Repr

inductive InterventionRouteKey
  | retrySecondaryGateway
  | promptPaymentMethodSwitch
  | dynamicRetryBackoff
  | degradationCircuitBypass
  | fallbackPaymentLink
deriving DecidableEq, Repr

/-- The stored value of a route key. -/
def InterventionRouteKey.value : InterventionRouteKey → String
  | retrySecondaryGateway => "RETRY_SECONDARY_GATEWAY"
  | promptPaymentMethodSwitch => "PROMPT_PAYMENT_METHOD_SWITCH"
  | dynamicRetryBackoff => "DYNAMIC_RETRY_BACKOFF"
  | degradationCircuitBypass => "DEGRADATION_CIRCUIT_BYPASS"
  | fallbackPaymentLink => "FALLBACK_PAYMENT_LINK"

/-- The inputs digested by `compute_decision_fingerprint`; a missing prediction has
status `none`, written `MISSING` by the source. -/
structure DecisionFingerprint where
  paymentAttemptId : String
  tDecide : Time
  amountMinorUnits : ℤ
  currency : String
  stage5PredictionId : Option PredictionId
  failureProbability : Option ℚ
  predictionStatus : Option PredictionStatus
  episodeId : Option EpisodeId
  episodeStatus : Option EpisodeStatus
  rcaClassification : Option RCAClassification
  rcaCandidateDimension : Option String
  rcaCandidateValue : Option String
  rcaEvidenceStrength : Option EvidenceStrength
  policyId : String
  policyVersion : String
deriving DecidableEq, Repr

/-- `uuid5` of the attempt key and the decision version. -/
structure DecisionId where
  paymentAttemptId : String
  decisionVersion : ℕ
deriving DecidableEq, Repr

/-- A row of `intervention_decisions`. -/
structure InterventionDecision where
  decisionId : DecisionId
  paymentAttemptId : String
  sourceSystem : String
  decisionVersion : ℕ
  decidedAt : Time
  decisionType : DecisionType
  selectedRouteId : Option InterventionRouteKey
  failureProbability : Option ℚ
  stage5PredictionId : Option PredictionId
  diagnosisConfidence : Option EvidenceStrength
  decisionConfidence : ℚ
  gateVerdict : GateVerdict
  policyId : String
  policyVersion : String
  inputFingerprint : DecisionFingerprint
deriving DecidableEq, Repr

/-! ## Stage 7: commands, execution attempts and observations -/

inductive CommandStatus
  | pending
  | executing
  | succeeded
  | failed
  | expired
  | notNeeded
deriving DecidableEq, Repr

/-- `uuid5` of the decision id. -/
structure CommandId where
  decisionId : DecisionId
deriving DecidableEq, Repr

/-- A row of `intervention_commands`. The idempotency key is `cmd_` followed by the
decision id. -/
structure InterventionCommand where
  commandId : CommandId
  decisionId : DecisionId
  paymentAttemptId : String
  sourceSystem : String
  decisionVersion : ℕ
  routeKey : InterventionRouteKey
  policyId : String
  policyVersion : String
  commandStatus : CommandStatus
  statusReason : Option String
  idempotencyKey : DecisionId
  createdAt : Time
  expiresAt : Time
  updatedAt : Time
deriving DecidableEq, Repr

inductive ExecutionResultStatus
  | success
  | failure
  | timeout
deriving DecidableEq, Repr

/-- What an executor returns. -/
structure ExecutionResult where
  status : ExecutionResultStatus
  executorName : String
  isSimulation : Bool
  providerActionType : String
  providerResponseCode : Option String
  errorMessage : Option String
  durationMs : ℕ
deriving DecidableEq, Repr

/-- A row of `intervention_execution_attempts`. -/
structure ExecutionAttempt where
  commandId : CommandId
  sourceSystem : String
  attemptNumber : ℕ
  startedAt : Time
  completedAt : Time
  durationMs : ℕ
  executionStatus : ExecutionResultStatus
  executorName : String
  isSimulation : Bool
  providerActionType : String
  providerResponseCode : Option String
  errorMessage : Option String
  createdAt : Time
deriving DecidableEq, Repr

inductive PaymentOutcome
  | captured
  | failed
  | unknownInFlight
deriving DecidableEq, Repr

/-- `uuid5` of the command id and the observation version. -/
structure ObservationId where
  commandId : CommandId
  observationVersion : ℕ
deriving DecidableEq, Repr

/-- A terminal event as the audit payload quotes it. -/
structure QuotedEvent where
  eventId : ℕ
  eventType : String
  timestamp : Time
  ingestedAt : Time
deriving DecidableEq, Repr

/-- What an observation records about the events it read; the selected event is the one
the outcome is derived from. -/
structure ObservationAuditPayload where
  terminalEventCount : ℕ
  conflictDetected : Bool
  conflictingEvents : List QuotedEvent
  canonicalSelectedEvent : Option QuotedEvent
deriving DecidableEq, Repr

/-- A row of `payment_outcome_observations`. -/
structure PaymentOutcomeObservation where
  observationId : ObservationId
  commandId : CommandId
  paymentAttemptId : String
  sourceSystem : String
  observationVersion : ℕ
  asOfTimestamp : Time
  paymentOutcome : PaymentOutcome
  terminalEventId : Option ℕ
  terminalEventType : Option String
  terminalEventTimestamp : Option Time
  timeToOutcomeMs : Option ℕ
  observationAuditPayload : ObservationAuditPayload
deriving DecidableEq, Repr

/-! ## Stage 8: attributions -/

inductive AttributionStatus
  | attributed
  | unattributedPaymentFailed
  | unattributedExecutionFailed
  | unattributedUntreated
  | unresolvedInFlight
  | indeterminateInsufficientEvidence
deriving DecidableEq, Repr

inductive TreatmentStatus
  | treated
  | executionFailed
  | untreated
deriving DecidableEq, Repr

inductive ModelProvenance
  | empiricalProduction
  | syntheticDevelopment
  | unknown
deriving DecidableEq, Repr

/-- What the calculator says about its result: the gate that stopped it, or the evidence
weights it used. -/
inductive AuditDetails
  | reason (text : String)
  | belowFloor (alphaConfidence : ℚ)
  | weights (provenance status prediction diagnosis timing alphaConfidence p0 : ℚ)
deriving DecidableEq, Repr

/-- The upstream facts an attribution records. Timestamps are those of the rows read. -/
structure AttributionAuditPayload where
  stage5ModelId : Option String
  stage5ModelProvenance : ModelProvenance
  routeKey : InterventionRouteKey
  attemptNumber : Option ℕ
  executionStatus : Option ExecutionResultStatus
  observationId : Option ObservationId
  terminalEventId : Option ℕ
  terminalEventType : Option String
  conflictDetected : Bool
  conflictingEvents : List QuotedEvent
  evidenceScoreComponents : AuditDetails
  timingDeltaSeconds : Option ℚ
  decidedAt : Time
  commandCreatedAt : Time
  executionStartedAt : Option Time
  executionCompletedAt : Option Time
  terminalEventTimestamp : Option Time
deriving DecidableEq, Repr

/-- `uuid5` of the command id and the attribution version. -/
structure AttributionId where
  commandId : CommandId
  attributionVersion : ℕ
deriving DecidableEq, Repr

/-- A row of `counterfactual_attributions`. -/
structure CounterfactualAttribution where
  attributionId : AttributionId
  commandId : CommandId
  paymentAttemptId : String
  sourceSystem : String
  decisionId : DecisionId
  attributionVersion : ℕ
  asOfTimestamp : Time
  attributionStatus : AttributionStatus
  methodologyName : String
  methodologyVersion : String
  treatmentStatus : TreatmentStatus
  observedPaymentOutcome : PaymentOutcome
  paymentAmountMinorUnits : ℤ
  counterfactualFailureProbability : Option ℚ
  counterfactualLossExposureMinorUnits : ℤ
  counterfactualNaturalSuccessGmvMinorUnits : ℤ
  attributedProtectedGmvMinorUnits : ℤ
  attributionConfidence : ℚ
  isSyntheticBaseline : Bool
  isSimulatedExecution : Bool
  attributionAuditPayload : AttributionAuditPayload
deriving DecidableEq, Repr

end RevenueRecovery
