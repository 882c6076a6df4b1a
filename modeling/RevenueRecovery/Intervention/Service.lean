import RevenueRecovery.Intervention.Policy
import RevenueRecovery.Prediction.Features
import RevenueRecovery.Prediction.Service

/-!
# Stage 6: decisions

A decision is computed from what was known of a registered attempt at `tDecide` and
appended as the attempt's next version, under a lock on the attempt key. A decision
whose inputs equal those of the latest version is returned instead. An `ACT` verdict is
admitted under a second, global lock that enforces the rate limit.

## Main definitions
* `DecisionContext` : the upstream facts.
* `tentativeVerdict` : the verdict of the gates, the routes and the risk.
* `decideUpstream`, `decideLocked`, `decideAdmitted` : the call, cut at its two locks.
-/
namespace RevenueRecovery

/-- The facts a decision is computed from. -/
structure DecisionContext where
  ref : AttemptRef
  tDecide : Time
  auth : Option PaymentEvent
  terminalExists : Bool
  prediction : Option FailurePrediction
  degradation : DegradationContext
deriving DecidableEq

namespace DecisionContext
variable (ctx : DecisionContext)

def amountMinorUnits : ℤ := ctx.auth.elim 0 (·.amountMinorUnits)
def currency : String := ctx.auth.elim "" (·.currency)
def candidate : Option CandidateCause := ctx.degradation.rca.bind Prod.snd
def evidenceStrength : Option EvidenceStrength := ctx.candidate.map (·.evidenceStrength)

/-- The probability the verdict weighs; `0` when the prediction has none. -/
def failureProbability : ℚ := (ctx.prediction.bind (·.failureProbability)).getD 0

/-- What the routes are matched against. The segment match is the prediction's. -/
def routeFacts : RouteFacts :=
  { rcaClassification := ctx.degradation.rca.map (·.1.classification)
    rcaEvidenceStrength := ctx.evidenceStrength
    rcaCandidateDimension := ctx.candidate.map (·.candidateDimension)
    rcaCandidateValue := ctx.candidate.map (·.candidateValue)
    rcaCandidateMatchesPaymentSegment :=
      (ctx.prediction.bind (·.featureSnapshot)).bind (·.rcaCandidateMatchesPaymentSegment)
    paymentMethod := ctx.auth.bind (·.paymentMethod)
    bank := ctx.auth.bind (·.bank)
    wallet := ctx.auth.bind (·.wallet) }

/-- The inputs digested by `compute_decision_fingerprint`. -/
def fingerprint (policy : InterventionPolicy) : DecisionFingerprint :=
  { paymentAttemptId := ctx.ref.paymentAttemptId
    tDecide := ctx.tDecide
    amountMinorUnits := ctx.amountMinorUnits
    currency := ctx.currency
    stage5PredictionId := ctx.prediction.map (·.predictionId)
    failureProbability := ctx.prediction.bind (·.failureProbability)
    predictionStatus := ctx.prediction.map (·.predictionStatus)
    episodeId := ctx.degradation.episode.map (·.episodeId)
    episodeStatus := ctx.degradation.episode.map (·.status)
    rcaClassification := ctx.degradation.rca.map (·.1.classification)
    rcaCandidateDimension := ctx.candidate.map (·.candidateDimension)
    rcaCandidateValue := ctx.candidate.map (·.candidateValue)
    rcaEvidenceStrength := ctx.evidenceStrength
    policyId := policy.policyId
    policyVersion := policy.policyVersion }

end DecisionContext

/-! ## Queries -/

/-- `check_terminal_event_exists`. -/
def checkTerminalEventExists (r : Reads) (ref : AttemptRef) (tDecide : Time) : Bool :=
  (r.db 0).events.any fun e =>
    isTerminalBefore ref.sourceSystem ref.paymentAttemptId e && e.ingestedAt < tDecide

/-- The attempt's latest prediction as of `tDecide`. -/
def getStage5PredictionAsOf (r : Reads) (ref : AttemptRef) (tDecide : Time) :
    Option FailurePrediction :=
  Table.latestBy (·.predictionVersion)
    ((attemptPredictions (r.db 0) ref.sourceSystem ref.paymentAttemptId).filter fun p =>
      p.predictedAt ≤ tDecide)

/-- The decisions of an attempt under its provider. -/
def attemptDecisions (db : Database) (sourceSystem paymentAttemptId : String) :
    List InterventionDecision :=
  if db.registeredUnder sourceSystem paymentAttemptId then
    db.decisions.filter fun d =>
      d.paymentAttemptId = paymentAttemptId ∧ d.sourceSystem = sourceSystem
  else []

def getLatestDecision (db : Database) (ref : AttemptRef) : Option InterventionDecision :=
  Table.latestBy (·.decisionVersion) (attemptDecisions db ref.sourceSystem ref.paymentAttemptId)

/-- The route was chosen for the attempt at or after an instant. -/
def hasRecentRouteDecision (db : Database) (ref : AttemptRef) (route : InterventionRouteKey)
    (since : Time) : Bool :=
  db.decisions.any fun d => d.paymentAttemptId == ref.paymentAttemptId &&
    d.selectedRouteId == some route && d.decisionType == .act && since ≤ d.decidedAt &&
    d.sourceSystem == ref.sourceSystem

def countRecentActDecisions (db : Database) (since : Time) : ℕ :=
  db.decisions.countP fun d => d.decisionType = .act ∧ since ≤ d.decidedAt

/-! ## Verdict -/

/-- The hard safety gates, in their order. -/
def evaluateGates (policy : InterventionPolicy) (ctx : DecisionContext) : GateVerdict :=
  let gates :=
    [evaluateKillSwitch policy,
     evaluateAmountAndCurrency ctx.amountMinorUnits ctx.currency,
     evaluatePreTerminalInvariance ctx.terminalExists,
     evaluateStage5PredictionValidity ctx.prediction,
     evaluateEpisodeAndTrafficShift (ctx.degradation.episode.map (·.status))
       (ctx.degradation.rca.map (·.1.evidenceAuditPayload))]
  (gates.find? (· ≠ .passed)).getD .passed

/-- The score of one route. -/
def scoreRoute (policy : InterventionPolicy) (ctx : DecisionContext)
    (onCooldown : InterventionRouteKey → Bool) (route : RoutePolicyDefinition) :
    CandidateRouteScore :=
  let eligibility :=
    if evaluatePolicyCostCurrency policy ctx.currency ≠ .passed then .unsupportedCurrency
    else evaluateRouteEligibility route ctx.routeFacts (onCooldown route.routeKey)
  let money := calculatePolicyUtility ctx.amountMinorUnits ctx.failureProbability
    route.policyRecoveryRate route.policyCostMinorUnits
  { routeKey := route.routeKey
    eligibility := eligibility
    expectedRecoveryBenefit := if eligibility = .eligible then money.1 else 0
    policyCostMinorUnits := route.policyCostMinorUnits
    policyUtility := if eligibility = .eligible then money.2 else 0
    routeAlignmentScore :=
      if eligibility = .eligible then calculateRouteAlignment route ctx.routeFacts else 0
    rank := 0 }

/-- The eligible routes, best first. -/
def rankedCandidates (policy : InterventionPolicy) (ctx : DecisionContext)
    (onCooldown : InterventionRouteKey → Bool) : List CandidateRouteScore :=
  scoreAndRankCandidates
    ((policy.routes.map (scoreRoute policy ctx onCooldown)).filter (·.eligibility = .eligible))

/-- The verdict before the global rate limit. -/
def tentativeVerdict (policy : InterventionPolicy) (ctx : DecisionContext)
    (onCooldown : InterventionRouteKey → Bool) : Verdict :=
  if evaluateGates policy ctx ≠ .passed then .blocked (evaluateGates policy ctx)
  else
    let ranked := rankedCandidates policy ctx onCooldown
    if ranked = [] ∧ ctx.failureProbability ≥ policy.actRiskThreshold then
      .blocked (if evaluatePolicyCostCurrency policy ctx.currency = .passed then
        .failedNoEligibleRoutes else evaluatePolicyCostCurrency policy ctx.currency)
    else determineVerdict ranked.head? ctx.failureProbability policy ctx.evidenceStrength

/-- The next version of the attempt's decision. -/
def newDecision (policy : InterventionPolicy) (db : Database) (ctx : DecisionContext)
    (verdict : Verdict) : InterventionDecision :=
  let version := Table.maxOf (·.decisionVersion)
    (attemptDecisions db ctx.ref.sourceSystem ctx.ref.paymentAttemptId) + 1
  { decisionId := ⟨ctx.ref.paymentAttemptId, version⟩
    paymentAttemptId := ctx.ref.paymentAttemptId
    sourceSystem := ctx.ref.sourceSystem
    decisionVersion := version
    decidedAt := ctx.tDecide
    decisionType := verdict.decisionType
    selectedRouteId := verdict.selectedRoute
    failureProbability := ctx.prediction.bind (·.failureProbability)
    stage5PredictionId := ctx.prediction.map (·.predictionId)
    diagnosisConfidence := ctx.evidenceStrength
    decisionConfidence := verdict.decisionConfidence
    gateVerdict := verdict.gateVerdict
    policyId := policy.policyId
    policyVersion := policy.policyVersion
    inputFingerprint := ctx.fingerprint policy }

/-! ## Service -/

/-- The stored decision, if its inputs are those of the context. -/
def storedDecision (policy : InterventionPolicy) (db : Database) (ctx : DecisionContext) :
    Option InterventionDecision :=
  (getLatestDecision db ctx.ref).filter fun d => d.inputFingerprint = ctx.fingerprint policy

/-- The facts known at `tDecide`. The statements are the registry, the trigger event, the
terminal events, the prediction, and the degradation context. -/
def decisionContext (r : Reads) (ref : AttemptRef) (tDecide : Time) :
    Except ServiceError DecisionContext := do
  let _ ← (r.db 0).require ref
  let auth := getPaymentEventById (r.shift 1) ref.paymentAttemptId tDecide
  return { ref := ref
           tDecide := tDecide
           auth := auth
           terminalExists := checkTerminalEventExists (r.shift 2) ref tDecide
           prediction := getStage5PredictionAsOf (r.shift 3) ref tDecide
           degradation := auth.elim ⟨none, none⟩ fun e =>
             degradationContext (r.shift 4) e tDecide }

/-- The call up to the version lock: a stored decision, or the context to decide on. -/
def decideUpstream (policy : InterventionPolicy) (r : Reads) (ref : AttemptRef)
    (tDecide : Time) : Except ServiceError (InterventionDecision ⊕ DecisionContext) := do
  let ctx ← decisionContext r ref tDecide
  match storedDecision policy (r.db 16) ctx with
  | some d => return .inl d
  | none => return .inr ctx

/-- What the call does under the version lock: return a stored decision, append one, or
ask for the admission of an `ACT` verdict. -/
inductive LockedOutcome
  | stored (d : InterventionDecision)
  | append (d : InterventionDecision)
  | tentativeAct (verdict : Verdict)
deriving DecidableEq

/-- The cooldowns of the routes, each read by its own statement. -/
def cooldowns (policy : InterventionPolicy) (r : Reads) (ctx : DecisionContext)
    (key : InterventionRouteKey) : Bool :=
  policy.routes.zipIdx.any fun (route, i) => route.routeKey == key &&
    hasRecentRouteDecision (r.db i) ctx.ref key
      (ctx.tDecide - Time.seconds route.cooldownSeconds)

/-- The part of the call under the version lock. The statements are the latest decision,
the cooldowns, and the highest version. -/
def decideLocked (policy : InterventionPolicy) (r : Reads) (ctx : DecisionContext) :
    LockedOutcome :=
  match storedDecision policy (r.db 0) ctx with
  | some d => .stored d
  | none =>
      let verdict := tentativeVerdict policy ctx (cooldowns policy (r.shift 1) ctx)
      if verdict.decisionType = .act then .tentativeAct verdict
      else .append (newDecision policy (r.db (policy.routes.length + 1)) ctx verdict)

/-- The part of the call under the global lock. The statements are the recent `ACT`
decisions and the highest version. -/
def decideAdmitted (policy : InterventionPolicy) (r : Reads) (ctx : DecisionContext)
    (verdict : Verdict) : InterventionDecision :=
  newDecision policy (r.db 1) ctx
    (if countRecentActDecisions (r.db 0) (ctx.tDecide - Time.seconds 60) ≥
        policy.globalRateLimitPerMinute then .blocked .failedGlobalRateLimit else verdict)

/-! ## What a call reads -/

section Specifications
variable {policy : InterventionPolicy} {db : Database} {ctx : DecisionContext} {r : Reads}
  {d : InterventionDecision}

theorem storedDecision_mem (h : storedDecision policy db ctx = some d) : d ∈ db.decisions := by
  have hlatest := Table.latestBy_mem (Option.filter_eq_some_iff.mp h).1
  unfold attemptDecisions at hlatest
  split at hlatest
  · exact (List.mem_filter.mp hlatest).1
  · cases hlatest

/-- The decision is of the attempt, and was made at `tDecide`. -/
def DecidedFor (ref : AttemptRef) (tDecide : Time) (d : InterventionDecision) : Prop :=
  d.paymentAttemptId = ref.paymentAttemptId ∧ d.inputFingerprint.tDecide = tDecide

theorem storedDecision_decidedFor (h : storedDecision policy db ctx = some d) :
    DecidedFor ctx.ref ctx.tDecide d := by
  obtain ⟨hlatest, hfingerprint⟩ := Option.filter_eq_some_iff.mp h
  have hmem := Table.latestBy_mem hlatest
  unfold attemptDecisions at hmem
  split at hmem
  · have hkey := (List.mem_filter.mp hmem).2
    simp only [decide_eq_true_eq] at hkey hfingerprint
    exact ⟨hkey.1, by rw [hfingerprint]; rfl⟩
  · cases hmem

theorem newDecision_decidedFor (policy : InterventionPolicy) (db : Database)
    (ctx : DecisionContext) (verdict : Verdict) :
    DecidedFor ctx.ref ctx.tDecide (newDecision policy db ctx verdict) := ⟨rfl, rfl⟩

@[simp] theorem sourceSystem_newDecision (policy : InterventionPolicy) (db : Database)
    (ctx : DecisionContext) (verdict : Verdict) :
    (newDecision policy db ctx verdict).sourceSystem = ctx.ref.sourceSystem := rfl
@[simp] theorem paymentAttemptId_newDecision (policy : InterventionPolicy) (db : Database)
    (ctx : DecisionContext) (verdict : Verdict) :
    (newDecision policy db ctx verdict).paymentAttemptId = ctx.ref.paymentAttemptId := rfl
@[simp] theorem decisionType_newDecision (policy : InterventionPolicy) (db : Database)
    (ctx : DecisionContext) (verdict : Verdict) :
    (newDecision policy db ctx verdict).decisionType = verdict.decisionType := rfl

/-- The call returns a stored decision, or goes on to decide for its own attempt. -/
theorem decideUpstream_spec {ref : AttemptRef} {tDecide : Time}
    {res : InterventionDecision ⊕ DecisionContext}
    (h : decideUpstream policy r ref tDecide = .ok res) :
    (∃ d, res = .inl d ∧ d ∈ (r.db 16).decisions) ∨
      ∃ ctx, res = .inr ctx ∧ ctx.ref = ref ∧ ctx.tDecide = tDecide := by
  unfold decideUpstream decisionContext at h
  cases hreq : (r.db 0).require ref with
  | error e => simp [hreq, bind, Except.bind] at h
  | ok row =>
      simp only [hreq, bind, Except.bind, pure, Except.pure] at h
      split at h
      · cases h
        exact .inl ⟨_, rfl, storedDecision_mem ‹_›⟩
      · cases h
        exact .inr ⟨_, rfl, rfl, rfl⟩

/-- A stored decision is returned for the attempt and the time it was made for. -/
theorem decideUpstream_decidedFor {ref : AttemptRef} {tDecide : Time}
    (h : decideUpstream policy r ref tDecide = .ok (.inl d)) : DecidedFor ref tDecide d := by
  unfold decideUpstream decisionContext at h
  cases hreq : (r.db 0).require ref with
  | error e => simp [hreq, bind, Except.bind] at h
  | ok row =>
      simp only [hreq, bind, Except.bind, pure, Except.pure] at h
      split at h
      · cases h
        exact storedDecision_decidedFor ‹_›
      · cases h

theorem decideLocked_decidedFor
    (h : decideLocked policy r ctx = .stored d ∨ decideLocked policy r ctx = .append d) :
    DecidedFor ctx.ref ctx.tDecide d := by
  unfold decideLocked at h
  cases hstored : storedDecision policy (r.db 0) ctx with
  | some d' =>
      simp only [hstored, LockedOutcome.stored.injEq, reduceCtorEq, or_false] at h
      exact h ▸ storedDecision_decidedFor hstored
  | none =>
      simp only [hstored] at h
      split at h <;> simp only [reduceCtorEq, or_self, false_or, LockedOutcome.append.injEq] at h
      exact h ▸ newDecision_decidedFor ..

/-- Under the version lock, the call returns a stored decision, appends one that is not
`ACT`, or asks for the admission of an `ACT` verdict. -/
theorem decideLocked_spec (policy : InterventionPolicy) (r : Reads) (ctx : DecisionContext) :
    (∃ d, decideLocked policy r ctx = .stored d ∧ d ∈ (r.db 0).decisions) ∨
      (∃ verdict, decideLocked policy r ctx = .append
        (newDecision policy (r.db (policy.routes.length + 1)) ctx verdict) ∧
        verdict.decisionType ≠ .act) ∨
      ∃ verdict, decideLocked policy r ctx = .tentativeAct verdict ∧
        verdict.decisionType = .act := by
  unfold decideLocked
  cases hstored : storedDecision policy (r.db 0) ctx with
  | some d => exact .inl ⟨d, rfl, storedDecision_mem hstored⟩
  | none =>
      by_cases hact :
        (tentativeVerdict policy ctx (cooldowns policy (r.shift 1) ctx)).decisionType = .act
      · exact .inr (.inr ⟨_, by simp only [if_pos hact], hact⟩)
      · exact .inr (.inl ⟨_, by simp only [if_neg hact], hact⟩)

/-- An `ACT` decision is admitted only below the global rate limit. -/
theorem decideAdmitted_act {verdict : Verdict}
    (h : (decideAdmitted policy r ctx verdict).decisionType = .act) :
    countRecentActDecisions (r.db 0) (ctx.tDecide - Time.seconds 60) <
      policy.globalRateLimitPerMinute := by
  by_contra hlimit
  simp [decideAdmitted, Nat.not_lt.mp hlimit, Verdict.blocked] at h

end Specifications

end RevenueRecovery
