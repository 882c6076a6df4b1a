import RevenueRecovery.Domain.Records
import RevenueRecovery.Lib.Decimal

/-!
# Stage 8: risk-weighted attribution

The calculator passes a treated, captured payment with a usable prediction through the
confidence floor and splits its amount into the exposure at the predicted risk and the
part of the exposure credited to the intervention. Money is integer minor units;
probabilities and confidences are decimals with four places, rounded half-even.

## Main definitions
* `provenanceWeight`, `diagnosisWeight`, `computeTimingConfidence` : the evidence factors.
* `calculateAttribution` : status, money split and confidence.
-/
namespace RevenueRecovery

open Decimal

def methodologyName : String := "COUNTERFACTUAL_RISK_WEIGHTED_V1"
def methodologyVersion : String := "1.0.0"

def confidenceFloor : ℚ := 25 / 100

/-- `PROVENANCE_WEIGHTS`. -/
def provenanceWeight : ModelProvenance → ℚ
  | .empiricalProduction => 1
  | .syntheticDevelopment => 6 / 10
  | .unknown => 3 / 10

/-- `DIAGNOSIS_WEIGHTS`; a missing diagnosis is `NONE`. -/
def diagnosisWeight : Option EvidenceStrength → ℚ
  | some .strong => 1
  | some .moderate => 85 / 100
  | some .weak => 7 / 10
  | none => 6 / 10

/-- The timing factor of the seconds from the end of the execution to the outcome. -/
def computeTimingConfidence : Option ℚ → ℚ
  | none => 6 / 10
  | some delta => if delta ≤ 60 then 1 else if delta ≤ 300 then 85 / 100 else 6 / 10

structure AttributionCalculationResult where
  attributionStatus : AttributionStatus
  counterfactualLossExposureMinorUnits : ℤ
  counterfactualNaturalSuccessGmvMinorUnits : ℤ
  attributedProtectedGmvMinorUnits : ℤ
  attributionConfidence : ℚ
  auditDetails : AuditDetails
deriving DecidableEq, Repr

/-- A result that attributes nothing. -/
def notAttributed (status : AttributionStatus) (confidence : ℚ) (details : AuditDetails) :
    AttributionCalculationResult :=
  { attributionStatus := status
    counterfactualLossExposureMinorUnits := 0
    counterfactualNaturalSuccessGmvMinorUnits := 0
    attributedProtectedGmvMinorUnits := 0
    attributionConfidence := confidence
    auditDetails := details }

/-- The predicted loss, clamped to the payment. -/
def lossExposure (amount : ℤ) (p0 : ℚ) : ℤ := max 0 (min (halfEven (amount * p0)) amount)

/-- The credited part of the exposure. -/
def protectedGmv (amount : ℤ) (p0 alpha : ℚ) : ℤ :=
  max 0 (min (min (halfEven (amount * p0 * alpha)) (lossExposure amount p0)) amount)

/-- The confidence in the prediction: its provenance, if it is a prediction at all. -/
def predictionConfidence (provenance : ModelProvenance) (status : ℚ) : ℚ :=
  quantize 4 (provenanceWeight provenance * status)

/-- The confidence in the attribution, of all its evidence. -/
def alphaConfidence (provenance : ModelProvenance) (status : ℚ)
    (diagnosis : Option EvidenceStrength) (timingDeltaSeconds : Option ℚ) : ℚ :=
  quantize 4 (predictionConfidence provenance status * diagnosisWeight diagnosis *
    computeTimingConfidence timingDeltaSeconds)

/-- The attribution of a payment of `amount` minor units with predicted risk `p0`. -/
def calculateAttribution (amount : ℤ) (p0 : Option ℚ) (treatment : TreatmentStatus)
    (outcome : PaymentOutcome) (provenance : ModelProvenance) (predictionStatus : PredictionStatus)
    (diagnosis : Option EvidenceStrength) (timingDeltaSeconds : Option ℚ) :
    AttributionCalculationResult :=
  if outcome = .unknownInFlight then
    notAttributed .unresolvedInFlight 0 (.reason "PAYMENT_STILL_IN_FLIGHT")
  else if treatment = .untreated then
    notAttributed .unattributedUntreated 0 (.reason "TRANSACTION_WAS_NOT_TREATED")
  else if treatment = .executionFailed then
    notAttributed .unattributedExecutionFailed 0
      (.reason "INTERVENTION_EXECUTION_FAILED_OR_TIMED_OUT")
  else if outcome ≠ .captured then
    notAttributed .unattributedPaymentFailed 0
      (.reason "PAYMENT_TERMINAL_OUTCOME_WAS_NOT_CAPTURED")
  else
    let status : ℚ := if predictionStatus = .predicted then 1 else 0
    match p0 with
    | some p0 =>
        if status = 0 then
          notAttributed .indeterminateInsufficientEvidence 0
            (.reason "MISSING_OR_INVALID_STAGE5_PREDICTION")
        else
          let alpha := alphaConfidence provenance status diagnosis timingDeltaSeconds
          if alpha < confidenceFloor then
            notAttributed .indeterminateInsufficientEvidence alpha (.belowFloor alpha)
          else
            let p := quantize 4 p0
            { attributionStatus := .attributed
              counterfactualLossExposureMinorUnits := lossExposure amount p
              counterfactualNaturalSuccessGmvMinorUnits := max 0 (amount - lossExposure amount p)
              attributedProtectedGmvMinorUnits := protectedGmv amount p alpha
              attributionConfidence := alpha
              auditDetails := .weights (provenanceWeight provenance) status
                (predictionConfidence provenance status) (diagnosisWeight diagnosis)
                (computeTimingConfidence timingDeltaSeconds) alpha p }
    | none =>
        notAttributed .indeterminateInsufficientEvidence 0
          (.reason "MISSING_OR_INVALID_STAGE5_PREDICTION")

/-- The result of a treated and captured payment with predicted risk `p0`. -/
def attributedResult (amount : ℤ) (p0 : ℚ) (provenance : ModelProvenance)
    (diagnosis : Option EvidenceStrength) (timingDeltaSeconds : Option ℚ) :
    AttributionCalculationResult :=
  let alpha := alphaConfidence provenance 1 diagnosis timingDeltaSeconds
  let p := quantize 4 p0
  { attributionStatus := .attributed
    counterfactualLossExposureMinorUnits := lossExposure amount p
    counterfactualNaturalSuccessGmvMinorUnits := max 0 (amount - lossExposure amount p)
    attributedProtectedGmvMinorUnits := protectedGmv amount p alpha
    attributionConfidence := alpha
    auditDetails := .weights (provenanceWeight provenance) 1 (predictionConfidence provenance 1)
      (diagnosisWeight diagnosis) (computeTimingConfidence timingDeltaSeconds) alpha p }

section Calculation
variable {amount : ℤ} {p0 : Option ℚ} {treatment : TreatmentStatus} {outcome : PaymentOutcome}
  {provenance : ModelProvenance} {predictionStatus : PredictionStatus}
  {diagnosis : Option EvidenceStrength} {timing : Option ℚ}

theorem protectedGmv_le (amount : ℤ) (p alpha : ℚ) : protectedGmv amount p alpha ≤ max 0 amount :=
  max_le_max le_rfl (min_le_right _ _)

/-- Every result either attributes nothing, or is of a treated and captured payment with a
predicted risk. -/
theorem calculateAttribution_cases (amount : ℤ) (p0 : Option ℚ) (treatment : TreatmentStatus)
    (outcome : PaymentOutcome) (provenance : ModelProvenance)
    (predictionStatus : PredictionStatus) (diagnosis : Option EvidenceStrength)
    (timing : Option ℚ) :
    (∃ status confidence details,
      calculateAttribution amount p0 treatment outcome provenance predictionStatus diagnosis
        timing = notAttributed status confidence details ∧ status ≠ .attributed) ∨
    (treatment = .treated ∧ outcome = .captured ∧ predictionStatus = .predicted ∧
      ∃ p, p0 = some p ∧ confidenceFloor ≤ alphaConfidence provenance 1 diagnosis timing ∧
        calculateAttribution amount p0 treatment outcome provenance predictionStatus diagnosis
          timing = attributedResult amount p provenance diagnosis timing) := by
  by_cases hflight : outcome = .unknownInFlight
  · exact .inl ⟨_, _, _, by rw [calculateAttribution, if_pos hflight], by simp⟩
  by_cases huntreated : treatment = .untreated
  · exact .inl ⟨_, _, _, by rw [calculateAttribution, if_neg hflight, if_pos huntreated],
      by simp⟩
  by_cases hfailed : treatment = .executionFailed
  · exact .inl ⟨_, _, _, by
      rw [calculateAttribution, if_neg hflight, if_neg huntreated, if_pos hfailed], by simp⟩
  by_cases hcaptured : outcome = .captured
  · have htreated : treatment = .treated := by
      cases treatment with
      | treated => rfl
      | executionFailed => exact absurd rfl hfailed
      | untreated => exact absurd rfl huntreated
    subst hcaptured htreated
    cases p0 with
    | none => exact .inl ⟨_, _, _, rfl, by simp⟩
    | some p =>
        by_cases hpred : predictionStatus = .predicted
        · subst hpred
          by_cases hfloor : alphaConfidence provenance 1 diagnosis timing < confidenceFloor
          · exact .inl ⟨.indeterminateInsufficientEvidence, _, _, by
              simp only [calculateAttribution]; simp [hfloor]; rfl, by simp⟩
          · exact .inr ⟨rfl, rfl, rfl, p, rfl, not_lt.mp hfloor, by
              simp [calculateAttribution, attributedResult, hfloor]⟩
        · exact .inl ⟨.indeterminateInsufficientEvidence, 0,
            .reason "MISSING_OR_INVALID_STAGE5_PREDICTION", by
            simp [calculateAttribution, hpred], by simp⟩
  · exact .inl ⟨_, _, _, by
      rw [calculateAttribution, if_neg hflight, if_neg huntreated, if_neg hfailed,
        if_pos hcaptured], by simp⟩

/-- A credited amount is at most the payment's amount. -/
theorem calculateAttribution_protected_le :
    (calculateAttribution amount p0 treatment outcome provenance predictionStatus diagnosis
      timing).attributedProtectedGmvMinorUnits ≤ max 0 amount := by
  rcases calculateAttribution_cases amount p0 treatment outcome provenance predictionStatus
    diagnosis timing with ⟨status, confidence, details, h, -⟩ | ⟨-, -, -, p, -, -, h⟩
  · rw [h]
    exact le_max_left _ _
  · rw [h]
    exact protectedGmv_le _ _ _

/-- What an attributed or positive result says about its inputs. -/
theorem calculateAttribution_attributed
    (h : (calculateAttribution amount p0 treatment outcome provenance predictionStatus diagnosis
        timing).attributionStatus = .attributed ∨
      0 < (calculateAttribution amount p0 treatment outcome provenance predictionStatus diagnosis
        timing).attributedProtectedGmvMinorUnits) :
    treatment = .treated ∧ outcome = .captured ∧ predictionStatus = .predicted ∧
      p0.isSome = true := by
  rcases calculateAttribution_cases amount p0 treatment outcome provenance predictionStatus
    diagnosis timing with ⟨status, confidence, details, heq, hne⟩ | ⟨ht, ho, hp, p, rfl, -⟩
  · rw [heq] at h
    rcases h with h | h
    · exact absurd h hne
    · simp [notAttributed] at h
  · exact ⟨ht, ho, hp, rfl⟩

end Calculation

end RevenueRecovery
