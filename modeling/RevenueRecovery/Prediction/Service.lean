import RevenueRecovery.Prediction.Features

/-!
# Stage 5: predictions

A prediction is computed from the features of a registered attempt that has no
terminal event yet, and appended as the attempt's next version. A prediction whose
inputs equal those of the latest version is returned instead.

## Main definitions
* `FailurePredictionModel`, `deterministicBaselineModel` : the model interface.
* `predictionInputs` : what a prediction is computed from.
* `orchestratePrediction` : the outcome of the call before the version lock.
* `newPrediction` : the row appended under the lock.
-/
namespace RevenueRecovery

/-- A Stage 5 model. -/
structure FailurePredictionModel where
  modelName : String
  modelVersion : String
  featureSchemaVersion : String
  predict : FeatureSnapshot → ℚ

/-- The heuristic probability: prior and recent global failure rate, raised by an active
degradation and by a root cause that names the payment's segment. -/
def baselinePredict (f : FeatureSnapshot) : ℚ :=
  let base : ℚ := 5 / 100
  let blended := match f.global30mFailureRate <|> f.global24hFailureRate with
    | some r => 1 / 2 * base + 1 / 2 * r
    | none => base
  let degraded := if f.isInActiveDegradation then
      match f.degradationSeverity with
      | some .critical => blended + 30 / 100
      | some .high => blended + 15 / 100
      | some .moderate => blended + 5 / 100
      | none => blended
    else blended
  let diagnosed := if f.rcaCandidateMatchesPaymentSegment = some true then
      match f.rcaEvidenceStrength with
      | some .strong => degraded + 2 / 10
      | some .moderate => degraded + 1 / 10
      | _ => degraded
    else degraded
  max 0 (min 1 diagnosed)

def deterministicBaselineModel : FailurePredictionModel :=
  { modelName := "DeterministicBaselineModel"
    modelVersion := "untrained-heuristic-v2"
    featureSchemaVersion := "v1.0.0"
    predict := baselinePredict }

def predictionHorizon : String := "30m"

/-- The attempt has no terminal event known before `t`. -/
def isEligibleForPrediction (r : Reads) (ref : AttemptRef) (t : Time) : Bool :=
  !(r.db 0).events.any fun e =>
    isTerminalBefore ref.sourceSystem ref.paymentAttemptId e && e.ingestedAt < t

/-- The predictions of an attempt under its provider. -/
def attemptPredictions (db : Database) (sourceSystem paymentAttemptId : String) :
    List FailurePrediction :=
  if db.registeredUnder sourceSystem paymentAttemptId then
    db.predictions.filter fun p =>
      p.paymentAttemptId = paymentAttemptId ∧ p.sourceSystem = sourceSystem
  else []

def getLatestPrediction (r : Reads) (ref : AttemptRef) : Option FailurePrediction :=
  Table.latestBy (·.predictionVersion)
    (attemptPredictions (r.db 0) ref.sourceSystem ref.paymentAttemptId)

def riskBand (probability : ℚ) : RiskBand :=
  if probability ≥ 7 / 10 then .high
  else if probability ≥ 3 / 10 then .elevated
  else .low

/-- Status and features of the attempt as of `t`. -/
def predictionInputs (r : Reads) (ref : AttemptRef) (t : Time) :
    PredictionStatus × Option FeatureSnapshot :=
  if isEligibleForPrediction r ref t then
    match reconstructFeatures (r.shift 1) ref.paymentAttemptId t with
    | none => (.insufficientData, none)
    | some f => (if f.insufficientGlobalVolume then .insufficientData else .predicted, some f)
  else (.notEligible, none)

def predictionFingerprint (model : FailurePredictionModel) (ref : AttemptRef) (t : Time)
    (features : Option FeatureSnapshot) : PredictionFingerprint :=
  { paymentAttemptId := ref.paymentAttemptId
    predictedAt := t
    predictionHorizon := predictionHorizon
    featureSnapshot := features
    modelName := model.modelName
    modelVersion := model.modelVersion
    featureSchemaVersion := model.featureSchemaVersion }

/-- The call up to the version lock: the stored prediction when its inputs are those of
the latest version, and otherwise the status and features to be predicted from. The
statements are the registry, the terminal events, the features and the latest version. -/
def orchestratePrediction (model : FailurePredictionModel) (r : Reads) (ref : AttemptRef)
    (t : Time) : Except ServiceError
      (FailurePrediction ⊕ (PredictionStatus × Option FeatureSnapshot)) := do
  let _ ← (r.db 0).require ref
  let inputs := predictionInputs (r.shift 1) ref t
  match getLatestPrediction (r.shift 25) ref with
  | some latest =>
      if latest.inputFingerprint = predictionFingerprint model ref t inputs.2 then
        return .inl latest
      else return .inr inputs
  | none => return .inr inputs

/-- The next version of the attempt's prediction. -/
def newPrediction (model : FailurePredictionModel) (db : Database) (ref : AttemptRef)
    (t : Time) (inputs : PredictionStatus × Option FeatureSnapshot) : FailurePrediction :=
  let version := Table.maxOf (·.predictionVersion)
    (attemptPredictions db ref.sourceSystem ref.paymentAttemptId) + 1
  let probability := match inputs.1, inputs.2 with
    | .predicted, some f => some (model.predict f)
    | _, _ => none
  { predictionId := ⟨ref.paymentAttemptId, version⟩
    paymentAttemptId := ref.paymentAttemptId
    sourceSystem := ref.sourceSystem
    predictionVersion := version
    predictedAt := t
    predictionHorizon := predictionHorizon
    failureProbability := probability
    riskBand := probability.map riskBand
    predictionStatus := inputs.1
    modelName := model.modelName
    modelVersion := model.modelVersion
    featureSchemaVersion := model.featureSchemaVersion
    featureSnapshot := inputs.2
    inputFingerprint := predictionFingerprint model ref t inputs.2 }

end RevenueRecovery
