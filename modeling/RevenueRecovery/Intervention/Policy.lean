import RevenueRecovery.Domain.Records
import RevenueRecovery.Lib.Decimal
import Mathlib.Data.List.Sort

/-!
# Stage 6: policy, gates and calculator

The safety gates, the eligibility of each route of a policy, the utility of acting
through a route, and the verdict they lead to. All of them are pure.

## Main definitions
* `InterventionPolicy`, `getDefaultPolicy` : the policy and its routes.
* `evaluateRouteEligibility` : whether a route applies to a payment.
* `calculatePolicyUtility`, `scoreAndRankCandidates` : the best route.
* `determineVerdict` : the decision on the best route and the failure probability.
-/
namespace RevenueRecovery

/-- A permitted intervention route. -/
structure RoutePolicyDefinition where
  routeKey : InterventionRouteKey
  targetDimensions : List String
  policyRecoveryRate : ℚ
  policyCostMinorUnits : ℤ
  cooldownSeconds : ℤ
  requiresDiagnosis : Bool
  requiresStrongRca : Bool
  enabled : Bool := true
deriving DecidableEq, Repr

/-- A decision policy. Costs and the utility threshold are minor units of `costCurrency`. -/
structure InterventionPolicy where
  policyId : String
  policyVersion : String
  killSwitchEnabled : Bool
  actRiskThreshold : ℚ
  monitorRiskThreshold : ℚ
  minPolicyUtilityThreshold : ℤ
  globalRateLimitPerMinute : ℕ
  routes : List RoutePolicyDefinition
  costCurrency : String := "INR"
deriving DecidableEq, Repr

/-- The default policy. -/
def getDefaultPolicy : InterventionPolicy :=
  { policyId := "default-recovery-v1"
    policyVersion := "1.0.0"
    killSwitchEnabled := false
    actRiskThreshold := 70 / 100
    monitorRiskThreshold := 35 / 100
    minPolicyUtilityThreshold := 50
    globalRateLimitPerMinute := 100
    routes :=
      [{ routeKey := .retrySecondaryGateway
         targetDimensions := ["BANK", "GLOBAL"]
         policyRecoveryRate := 55 / 100
         policyCostMinorUnits := 150
         cooldownSeconds := 300
         requiresDiagnosis := true
         requiresStrongRca := false },
       { routeKey := .promptPaymentMethodSwitch
         targetDimensions := ["PAYMENT_METHOD"]
         policyRecoveryRate := 65 / 100
         policyCostMinorUnits := 300
         cooldownSeconds := 600
         requiresDiagnosis := true
         requiresStrongRca := true },
       { routeKey := .dynamicRetryBackoff
         targetDimensions := ["GLOBAL", "BANK", "PAYMENT_METHOD"]
         policyRecoveryRate := 35 / 100
         policyCostMinorUnits := 50
         cooldownSeconds := 180
         requiresDiagnosis := false
         requiresStrongRca := false },
       { routeKey := .degradationCircuitBypass
         targetDimensions := ["BANK", "PAYMENT_METHOD"]
         policyRecoveryRate := 75 / 100
         policyCostMinorUnits := 500
         cooldownSeconds := 900
         requiresDiagnosis := true
         requiresStrongRca := true },
       { routeKey := .fallbackPaymentLink
         targetDimensions := ["GLOBAL"]
         policyRecoveryRate := 45 / 100
         policyCostMinorUnits := 200
         cooldownSeconds := 1800
         requiresDiagnosis := false
         requiresStrongRca := false }]
    costCurrency := "INR" }

/-! ## Gates -/

def evaluateKillSwitch (policy : InterventionPolicy) : GateVerdict :=
  if policy.killSwitchEnabled then .failedKillSwitch else .passed

def evaluateAmountAndCurrency (amountMinorUnits : ℤ) (currency : String) : GateVerdict :=
  if amountMinorUnits ≤ 0 then .failedInvalidAmount
  else if currency.toList.length ≠ 3 then .failedInvalidAmount
  else .passed

def evaluatePreTerminalInvariance (terminalEventExists : Bool) : GateVerdict :=
  if terminalEventExists then .failedTerminalOutcomeIngested else .passed

def evaluateStage5PredictionValidity : Option FailurePrediction → GateVerdict
  | none => .failedStage5Unavailable
  | some p =>
      if p.predictionStatus ≠ .predicted then .failedStage5Ineligible
      else if p.failureProbability.isNone then .failedStage5Ineligible
      else .passed

def evaluateEpisodeAndTrafficShift (episodeStatus : Option EpisodeStatus)
    (payload : Option EvidenceAuditPayload) : GateVerdict :=
  if episodeStatus = some .invalidated then .failedEpisodeInvalidated
  else match payload with
    | some p =>
        if p.trafficMixShift || p.unreliableDiagnosis then .failedUnreliableDiagnosis
        else .passed
    | none => .passed

def evaluatePolicyCostCurrency (policy : InterventionPolicy) (currency : String) :
    GateVerdict :=
  if currency ≠ policy.costCurrency then .failedUnsupportedCostCurrency else .passed

/-- Whether a route is eligible, or why it is not. -/
inductive RouteEligibility
  | eligible
  | disabled
  | onCooldown
  | unknownDiagnosis
  | weakEvidence
  | segmentMismatch
  | unsupportedDimension
  | systemicNeedsGlobal
  | notApplicable
  | unsupportedCurrency
deriving DecidableEq, Repr

/-- What Stage 6 knows of the payment and of its degradation. -/
structure RouteFacts where
  rcaClassification : Option RCAClassification
  rcaEvidenceStrength : Option EvidenceStrength
  rcaCandidateDimension : Option String
  rcaCandidateValue : Option String
  rcaCandidateMatchesPaymentSegment : Option Bool
  paymentMethod : Option String
  bank : Option String
  wallet : Option String
deriving DecidableEq, Repr

/-- A nonempty optional string. -/
def isPresent (s : Option String) : Bool := s.isSome && s != some ""

def evaluateRouteEligibility (route : RoutePolicyDefinition) (facts : RouteFacts)
    (isOnCooldown : Bool) : RouteEligibility :=
  if !route.enabled then .disabled
  else if isOnCooldown then .onCooldown
  else if route.requiresDiagnosis && facts.rcaClassification == some .unknown then
    .unknownDiagnosis
  else if route.requiresStrongRca && facts.rcaEvidenceStrength != some .strong &&
      facts.rcaEvidenceStrength != some .moderate then .weakEvidence
  else if route.requiresDiagnosis then
    match facts.rcaClassification with
    | some .segmentSpecific =>
        if facts.rcaCandidateMatchesPaymentSegment != some true then .segmentMismatch
        else if isPresent facts.rcaCandidateDimension &&
            !route.targetDimensions.contains (facts.rcaCandidateDimension.getD "") then
          .unsupportedDimension
        else .eligible
    | some .systemic =>
        if route.targetDimensions.contains "GLOBAL" then .eligible else .systemicNeedsGlobal
    | _ => .notApplicable
  else if route.targetDimensions.contains "GLOBAL" ||
      (route.targetDimensions.contains "BANK" && isPresent facts.bank) ||
      (route.targetDimensions.contains "PAYMENT_METHOD" && isPresent facts.paymentMethod) then
    .eligible
  else .notApplicable

/-! ## Calculator -/

/-- The expected recovery, rounded half-even to minor units, and what is left of it
after the cost of the route. -/
def calculatePolicyUtility (amountMinorUnits : ℤ) (failureProbability recoveryRate : ℚ)
    (costMinorUnits : ℤ) : ℤ × ℤ :=
  let gross := Decimal.quantize 6 failureProbability * amountMinorUnits * recoveryRate
  let expectedBenefit := Decimal.halfEven gross
  (expectedBenefit, expectedBenefit - costMinorUnits)

/-- How well a route fits the diagnosis and the payment. -/
def calculateRouteAlignment (route : RoutePolicyDefinition) (facts : RouteFacts) : ℚ :=
  let dimension := (facts.rcaCandidateDimension.getD "").toUpper
  let value := facts.rcaCandidateValue.getD ""
  let diagnosed := isPresent facts.rcaCandidateDimension && isPresent facts.rcaCandidateValue
  let names := fun target (own : Option String) =>
    diagnosed && dimension == target && route.targetDimensions.contains target &&
      isPresent own && (own.getD "").toLower == value.toLower
  if names "BANK" facts.bank || names "PAYMENT_METHOD" facts.paymentMethod then 1
  else if isPresent facts.paymentMethod && route.targetDimensions.contains "PAYMENT_METHOD" then
    80 / 100
  else if isPresent facts.bank && route.targetDimensions.contains "BANK" then 75 / 100
  else if route.targetDimensions.contains "GLOBAL" then 70 / 100
  else 50 / 100

/-- A number cut to the unit interval. -/
def clampUnit (x : ℚ) : ℚ := max 0 (min 1 x)

def calculateActConfidence (failureProbability actRiskThreshold : ℚ)
    (rcaEvidenceStrength : Option EvidenceStrength) (routeAlignmentScore : ℚ) : ℚ :=
  let prediction := if actRiskThreshold < 1 then
      1 / 2 + 1 / 2 * clampUnit ((failureProbability - actRiskThreshold) / (1 - actRiskThreshold))
    else 1
  let rca : ℚ := match rcaEvidenceStrength with
    | some .strong => 1
    | some .moderate => 75 / 100
    | some .weak => 40 / 100
    | none => 50 / 100
  clampUnit (Decimal.quantize 4
    (40 / 100 * prediction + 35 / 100 * rca + 25 / 100 * clampUnit routeAlignmentScore))

def calculateMonitorConfidence (failureProbability monitorRiskThreshold actRiskThreshold : ℚ) :
    ℚ :=
  let span := actRiskThreshold - monitorRiskThreshold
  if span ≤ 0 then 1
  else
    let distance := |failureProbability - (monitorRiskThreshold + span / 2)|
    clampUnit (Decimal.quantize 4 (1 - 30 / 100 * min 1 (distance / (span / 2))))

/-- A route with its score. -/
structure CandidateRouteScore where
  routeKey : InterventionRouteKey
  eligibility : RouteEligibility
  expectedRecoveryBenefit : ℤ
  policyCostMinorUnits : ℤ
  policyUtility : ℤ
  routeAlignmentScore : ℚ
  rank : ℕ
deriving DecidableEq, Repr

/-- Utility descending, then cost and key value ascending. -/
def CandidateRouteScore.le (a b : CandidateRouteScore) : Bool :=
  b.policyUtility < a.policyUtility || (a.policyUtility == b.policyUtility &&
    (a.policyCostMinorUnits < b.policyCostMinorUnits ||
      (a.policyCostMinorUnits == b.policyCostMinorUnits &&
        a.routeKey.value ≤ b.routeKey.value)))

def scoreAndRankCandidates (candidates : List CandidateRouteScore) :
    List CandidateRouteScore :=
  (candidates.insertionSort fun a b => a.le b).mapIdx fun i c => { c with rank := i + 1 }

/-- A verdict, before it is persisted. -/
structure Verdict where
  decisionType : DecisionType
  selectedRoute : Option InterventionRouteKey
  decisionConfidence : ℚ
  gateVerdict : GateVerdict
deriving DecidableEq, Repr

/-- `NO_ACTION` because of a gate. -/
def Verdict.blocked (gateVerdict : GateVerdict) : Verdict := ⟨.noAction, none, 1, gateVerdict⟩

/-- `MONITOR` or `NO_ACTION` on the risk alone. -/
def riskVerdict (probability : ℚ) (policy : InterventionPolicy) : Verdict :=
  if probability ≥ policy.monitorRiskThreshold then
    ⟨.monitor, none, calculateMonitorConfidence probability policy.monitorRiskThreshold
      policy.actRiskThreshold, .passed⟩
  else ⟨.noAction, none, clampUnit (Decimal.quantize 4 (1 - probability)), .passed⟩

def determineVerdict (best : Option CandidateRouteScore) (probability : ℚ)
    (policy : InterventionPolicy) (rcaEvidenceStrength : Option EvidenceStrength) : Verdict :=
  match best with
  | some candidate =>
      if candidate.policyUtility ≥ policy.minPolicyUtilityThreshold ∧
          probability ≥ policy.actRiskThreshold then
        ⟨.act, some candidate.routeKey, calculateActConfidence probability
          policy.actRiskThreshold rcaEvidenceStrength candidate.routeAlignmentScore, .passed⟩
      else riskVerdict probability policy
  | none => riskVerdict probability policy

end RevenueRecovery
