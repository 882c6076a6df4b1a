import Mathlib.Data.List.Infix
import RevenueRecovery.Attribution.Calculator
import RevenueRecovery.Store

/-!
# Stage 8: attribution service

An attribution of a command as of a time is computed from the latest execution attempt and
observation stored by then, the command's decision and the decision's prediction, and is
appended as the command's next version under the attribution lock. An attribution of the
same time is returned instead.

## Main definitions
* `Upstream` : the rows an attribution is computed from.
* `treatmentStatus` : whether the intervention was delivered before the outcome.
* `newAttribution` : the next version.
* `attributePaymentIntervention` : the call under its lock.
-/
namespace RevenueRecovery

/-! ## Model provenance -/

def developmentModelNames : List String := ["DeterministicBaselineModel"]

/-- The validated model versions; there are none. -/
def verifiedEmpiricalModels : List (String × String) := []

def classifyModelProvenance (modelName modelVersion : String) : ModelProvenance :=
  if developmentModelNames.contains modelName ∨
      "synthetic".toList <:+: modelName.toLower.toList then .syntheticDevelopment
  else if verifiedEmpiricalModels.contains (modelName, modelVersion) then .empiricalProduction
  else .unknown

/-! ## Queries -/

/-- `get_latest_execution_attempt`. -/
def getLatestExecutionAttempt (db : Database) (commandId : CommandId) (asOf : Time) :
    Option ExecutionAttempt :=
  Table.latestBy (·.attemptNumber)
    (db.executionAttempts.filter fun a => a.commandId = commandId ∧ a.createdAt ≤ asOf)

/-- `get_latest_outcome_observation`. -/
def getLatestOutcomeObservation (db : Database) (commandId : CommandId) (asOf : Time) :
    Option PaymentOutcomeObservation :=
  Table.latestBy (·.observationVersion)
    (db.observations.filter fun o => o.commandId = commandId ∧ o.asOfTimestamp ≤ asOf)

def getDecision (db : Database) (decisionId : DecisionId) : Option InterventionDecision :=
  db.decisions.find? fun d => d.decisionId = decisionId

def getPrediction (db : Database) (predictionId : PredictionId) : Option FailurePrediction :=
  db.predictions.find? fun p => p.predictionId = predictionId

theorem Unique.getDecision {db : Database} (h : Unique db) {d : InterventionDecision}
    (hd : d ∈ db.decisions) : getDecision db d.decisionId = some d := by
  have hfind : (RevenueRecovery.getDecision db d.decisionId).isSome := by
    simpa [RevenueRecovery.getDecision, List.find?_isSome] using ⟨d, hd, rfl⟩
  obtain ⟨x, hx⟩ := Option.isSome_iff_exists.mp hfind
  have hxd : x.decisionId = d.decisionId := by simpa using List.find?_some hx
  rw [hx, h.decision_eq (List.mem_of_find?_eq_some hx) hd hxd]

theorem Unique.getPrediction {db : Database} (h : Unique db) {p : FailurePrediction}
    (hp : p ∈ db.predictions) : getPrediction db p.predictionId = some p := by
  have hfind : (RevenueRecovery.getPrediction db p.predictionId).isSome := by
    simpa [RevenueRecovery.getPrediction, List.find?_isSome] using ⟨p, hp, rfl⟩
  obtain ⟨x, hx⟩ := Option.isSome_iff_exists.mp hfind
  have hxp : x.predictionId = p.predictionId := by simpa using List.find?_some hx
  rw [hx, h.prediction_eq (List.mem_of_find?_eq_some hx) hp hxp]

/-- `get_canonical_payment_amount`, provider-exact: the latest authorization's amount. -/
def getCanonicalPaymentAmount (r : Reads) (k : ℕ) (sourceSystem paymentAttemptId : String)
    (asOf : Time) : Option ℤ :=
  (Table.latestBy (·.ingestedAt) (r.rows k (·.events) fun e =>
    isTriggerFrom sourceSystem paymentAttemptId e && e.ingestedAt ≤ asOf)).map
      (·.amountMinorUnits)

def getAttributionByAsOf (db : Database) (commandId : CommandId) (asOf : Time) :
    Option CounterfactualAttribution :=
  db.attributions.find? fun a => a.commandId = commandId ∧ a.asOfTimestamp = asOf

def getLatestAttribution (db : Database) (commandId : CommandId) :
    Option CounterfactualAttribution :=
  Table.latestBy (·.attributionVersion)
    (db.attributions.filter fun a => a.commandId = commandId)

/-- A stored attribution must belong to the provider of its command. -/
def checkCommandProvider (db : Database) (a : CounterfactualAttribution) :
    Except ServiceError Unit :=
  match db.getCommandById a.commandId with
  | none => .ok ()
  | some cmd =>
      if a.sourceSystem ≠ cmd.sourceSystem then .error .attemptProviderConflict else .ok ()

/-! ## Attribution -/

/-- The rows an attribution is computed from. -/
structure Upstream where
  command : InterventionCommand
  attempt : Option ExecutionAttempt
  observation : Option PaymentOutcomeObservation
  decision : InterventionDecision
  prediction : Option FailurePrediction
  paymentAmount : ℤ
deriving DecidableEq

namespace Upstream
variable (u : Upstream)

/-- The upstream rows belong to the command's provider and attempt. -/
def consistent : Bool :=
  u.decision.sourceSystem == u.command.sourceSystem &&
    u.prediction.all (·.sourceSystem == u.command.sourceSystem) &&
    u.attempt.all (·.sourceSystem == u.command.sourceSystem) &&
    u.observation.all (·.sourceSystem == u.command.sourceSystem) &&
    u.decision.paymentAttemptId == u.command.paymentAttemptId &&
    u.observation.all (·.paymentAttemptId == u.command.paymentAttemptId)

/-- The observed outcome precedes the end of the execution. -/
def outcomeBefore (attempt : ExecutionAttempt) : Bool :=
  match u.observation.bind (·.terminalEventTimestamp) with
  | some terminal => terminal < attempt.completedAt
  | none => false

/-- Whether the intervention was delivered before the outcome. -/
def treatmentStatus : TreatmentStatus :=
  if u.decision.decisionType ≠ .act then .untreated
  else if u.command.commandStatus ∈ [.notNeeded, .expired, .pending] then .untreated
  else match u.attempt with
    | none => .untreated
    | some attempt =>
        if attempt.executionStatus ≠ .success then .executionFailed
        else if u.outcomeBefore attempt then .untreated
        else .treated

def observedOutcome : PaymentOutcome := u.observation.elim .unknownInFlight (·.paymentOutcome)

def provenance : ModelProvenance :=
  u.prediction.elim .unknown fun p => classifyModelProvenance p.modelName p.modelVersion

def predictionStatus : PredictionStatus := u.prediction.elim .notEligible (·.predictionStatus)

/-- The predicted risk, to four places. -/
def p0 : Option ℚ := (u.prediction.bind (·.failureProbability)).map (Decimal.quantize 4)

/-- The seconds from the end of the execution to the outcome. -/
def timingDeltaSeconds : Option ℚ :=
  match u.attempt, u.observation.bind (·.terminalEventTimestamp) with
  | some attempt, some terminal => some ((terminal - attempt.completedAt : ℤ) / 1000000)
  | _, _ => none

def result : AttributionCalculationResult :=
  calculateAttribution u.paymentAmount u.p0 u.treatmentStatus u.observedOutcome u.provenance
    u.predictionStatus u.decision.diagnosisConfidence u.timingDeltaSeconds

def auditPayload : AttributionAuditPayload :=
  { stage5ModelId := u.prediction.map (·.modelName)
    stage5ModelProvenance := u.provenance
    routeKey := u.command.routeKey
    attemptNumber := u.attempt.map (·.attemptNumber)
    executionStatus := u.attempt.map (·.executionStatus)
    observationId := u.observation.map (·.observationId)
    terminalEventId := u.observation.bind (·.terminalEventId)
    terminalEventType := u.observation.bind (·.terminalEventType)
    conflictDetected := u.observation.any (·.observationAuditPayload.conflictDetected)
    conflictingEvents :=
      u.observation.elim [] (·.observationAuditPayload.conflictingEvents)
    evidenceScoreComponents := u.result.auditDetails
    timingDeltaSeconds := u.timingDeltaSeconds
    decidedAt := u.decision.decidedAt
    commandCreatedAt := u.command.createdAt
    executionStartedAt := u.attempt.map (·.startedAt)
    executionCompletedAt := u.attempt.map (·.completedAt)
    terminalEventTimestamp := u.observation.bind (·.terminalEventTimestamp) }

/-- The attribution of the rows, as the given version. -/
def newAttribution (version : ℕ) (asOf : Time) : CounterfactualAttribution :=
  { attributionId := ⟨u.command.commandId, version⟩
    commandId := u.command.commandId
    paymentAttemptId := u.command.paymentAttemptId
    sourceSystem := u.command.sourceSystem
    decisionId := u.decision.decisionId
    attributionVersion := version
    asOfTimestamp := asOf
    attributionStatus := u.result.attributionStatus
    methodologyName := methodologyName
    methodologyVersion := methodologyVersion
    treatmentStatus := u.treatmentStatus
    observedPaymentOutcome := u.observedOutcome
    paymentAmountMinorUnits := u.paymentAmount
    counterfactualFailureProbability := u.p0
    counterfactualLossExposureMinorUnits := u.result.counterfactualLossExposureMinorUnits
    counterfactualNaturalSuccessGmvMinorUnits :=
      u.result.counterfactualNaturalSuccessGmvMinorUnits
    attributedProtectedGmvMinorUnits := u.result.attributedProtectedGmvMinorUnits
    attributionConfidence := u.result.attributionConfidence
    isSyntheticBaseline := u.provenance ≠ .empiricalProduction
    isSimulatedExecution := u.attempt.all (·.isSimulation)
    attributionAuditPayload := u.auditPayload }

end Upstream

/-- The rows read as of a time. The statements are the command, the execution attempt, the
observation, the decision, the prediction, the registry and the amount. -/
def readUpstream (r : Reads) (commandId : CommandId) (asOf : Time) :
    Except ServiceError Upstream := do
  let some command := (r.db 0).getCommandById commandId | throw .missingUpstreamData
  let attempt := getLatestExecutionAttempt (r.db 1) commandId asOf
  let observation := getLatestOutcomeObservation (r.db 2) commandId asOf
  let some decision := getDecision (r.db 3) command.decisionId | throw .missingUpstreamData
  let prediction := decision.stage5PredictionId.bind (getPrediction (r.db 4))
  let _ ← (r.db 5).requireKey command.sourceSystem command.paymentAttemptId
  let amount := getCanonicalPaymentAmount r 6 command.sourceSystem command.paymentAttemptId
    (min decision.decidedAt asOf)
  let u : Upstream := ⟨command, attempt, observation, decision, prediction, amount.getD 0⟩
  if !u.consistent then throw .attemptProviderConflict
  return u

/-- The call under the attribution lock: the stored attribution of this time, or the next
version to append. The statements are the attribution of the time, its command, the latest
attribution, its command, and the upstream rows. -/
def attributePaymentIntervention (r : Reads) (commandId : CommandId) (asOf : Time) :
    Except ServiceError (CounterfactualAttribution ⊕ CounterfactualAttribution) := do
  match getAttributionByAsOf (r.db 0) commandId asOf with
  | some existing =>
      checkCommandProvider (r.db 1) existing
      return .inl existing
  | none =>
      let latest := getLatestAttribution (r.db 2) commandId
      if let some a := latest then checkCommandProvider (r.db 3) a
      let u ← readUpstream (r.shift 4) commandId asOf
      return .inr (u.newAttribution (latest.elim 1 (·.attributionVersion + 1)) asOf)

/-! ## What a call reads -/

/-- The rows are read when the command, its decision and its registry row are there and the
rows belong together. -/
theorem readUpstream_eq_ok {r : Reads} {commandId : CommandId} {asOf : Time} {u : Upstream} :
    readUpstream r commandId asOf = .ok u ↔
      (r.db 0).getCommandById commandId = some u.command ∧
      u.attempt = getLatestExecutionAttempt (r.db 1) commandId asOf ∧
      u.observation = getLatestOutcomeObservation (r.db 2) commandId asOf ∧
      getDecision (r.db 3) u.command.decisionId = some u.decision ∧
      u.prediction = u.decision.stage5PredictionId.bind (getPrediction (r.db 4)) ∧
      (∃ row, (r.db 5).requireKey u.command.sourceSystem u.command.paymentAttemptId = .ok row) ∧
      u.paymentAmount = (getCanonicalPaymentAmount r 6 u.command.sourceSystem
        u.command.paymentAttemptId (min u.decision.decidedAt asOf)).getD 0 ∧
      u.consistent = true := by
  constructor
  · intro h
    unfold readUpstream at h
    cases hcmd : (r.db 0).getCommandById commandId with
    | none => simp [hcmd, throw, throwThe, MonadExceptOf.throw] at h
    | some command =>
        cases hd : getDecision (r.db 3) command.decisionId with
        | none => simp [hcmd, hd, throw, throwThe, MonadExceptOf.throw] at h
        | some decision =>
            cases hreq : (r.db 5).requireKey command.sourceSystem command.paymentAttemptId with
            | error e => simp [hcmd, hd, hreq, bind, Except.bind] at h
            | ok row =>
                simp only [hcmd, hd, hreq, bind, Except.bind, pure, Except.pure, throw, throwThe,
                  MonadExceptOf.throw] at h
                split at h
                · cases h
                · rename_i hconsistent
                  cases h
                  exact ⟨rfl, rfl, rfl, hd, rfl, ⟨row, hreq⟩, rfl, by simpa using hconsistent⟩
  · rintro ⟨hcmd, hattempt, hobs, hd, hpred, ⟨row, hreq⟩, hamount, hconsistent⟩
    obtain ⟨command, attempt, observation, decision, prediction, amount⟩ := u
    dsimp only at *
    subst hattempt hobs hpred hamount
    simp [readUpstream, hcmd, hd, hreq, hconsistent, bind, Except.bind, pure, Except.pure]

/-- The rows were read from the stores of the statements. -/
theorem readUpstream_spec {r : Reads} {commandId : CommandId} {asOf : Time} {u : Upstream}
    (h : readUpstream r commandId asOf = .ok u) :
    (r.db 0).getCommandById commandId = some u.command ∧
      u.attempt = getLatestExecutionAttempt (r.db 1) commandId asOf ∧
      u.observation = getLatestOutcomeObservation (r.db 2) commandId asOf ∧
      getDecision (r.db 3) u.command.decisionId = some u.decision ∧
      u.prediction = u.decision.stage5PredictionId.bind (getPrediction (r.db 4)) ∧
      u.paymentAmount = (getCanonicalPaymentAmount r 6 u.command.sourceSystem
        u.command.paymentAttemptId (min u.decision.decidedAt asOf)).getD 0 ∧
      u.consistent = true := by
  obtain ⟨hcmd, hattempt, hobs, hd, hpred, -, hrest⟩ := readUpstream_eq_ok.mp h
  exact ⟨hcmd, hattempt, hobs, hd, hpred, hrest⟩

/-- A new attribution is that of the upstream rows. -/
theorem attributePaymentIntervention_spec {r : Reads} {commandId : CommandId} {asOf : Time}
    {a : CounterfactualAttribution}
    (h : attributePaymentIntervention r commandId asOf = .ok (.inr a)) :
    ∃ u, readUpstream (r.shift 4) commandId asOf = .ok u ∧
      getAttributionByAsOf (r.db 0) commandId asOf = none ∧
      a = u.newAttribution ((getLatestAttribution (r.db 2) commandId).elim 1
        (·.attributionVersion + 1)) asOf := by
  unfold attributePaymentIntervention at h
  cases hold : getAttributionByAsOf (r.db 0) commandId asOf with
  | some existing =>
      simp only [hold, bind, Except.bind] at h
      split at h <;> cases h
  | none =>
      simp only [hold, bind, Except.bind] at h
      split at h
      · split at h
        · cases h
        · cases hu : readUpstream (r.shift 4) commandId asOf with
          | error e => simp [hu] at h
          | ok u =>
              rename_i hlatest _ _
              simp only [hu, pure, Except.pure, Except.ok.injEq, Sum.inr.injEq] at h
              exact ⟨u, rfl, rfl, h.symm⟩
      · cases hu : readUpstream (r.shift 4) commandId asOf with
        | error e => simp [hu] at h
        | ok u =>
            simp only [hu, pure, Except.pure, Except.ok.injEq, Sum.inr.injEq] at h
            exact ⟨u, rfl, rfl, h.symm⟩

namespace Upstream
variable {u : Upstream}

/-- A delivered intervention was decided, and executed successfully before the outcome. -/
theorem treatmentStatus_treated (h : u.treatmentStatus = .treated) :
    u.decision.decisionType = .act ∧ ∃ attempt, u.attempt = some attempt ∧
      attempt.executionStatus = .success ∧ u.outcomeBefore attempt = false := by
  unfold treatmentStatus at h
  by_cases hact : u.decision.decisionType = .act
  · rw [if_neg (not_not_intro hact)] at h
    split at h
    · cases h
    · cases hattempt : u.attempt with
      | none => simp [hattempt] at h
      | some attempt =>
          simp only [hattempt] at h
          by_cases hsuccess : attempt.executionStatus = .success
          · rw [if_neg (not_not_intro hsuccess)] at h
            cases hbefore : u.outcomeBefore attempt with
            | true => simp [hbefore] at h
            | false => exact ⟨hact, attempt, rfl, hsuccess, hbefore⟩
          · simp [hsuccess] at h
  · simp [hact] at h

end Upstream

end RevenueRecovery
