import RevenueRecovery.Intervention.Service

/-!
# Stage 6: what the decision fingerprint covers

A stored decision is returned when its fingerprint equals that of the inputs. The
fingerprint leaves out whether a terminal event is known, the payment's method and bank,
the shift flags of the root cause analysis, the segment match of the prediction, the
cooldowns and the rate limit, and of the policy all but its id and version. A decision can
be returned that the gates would no longer give (`decideFresh_ne`).

## Main definitions
* `decideFresh` : the decision of a call that finds none stored.
* `decideCall` : what a call returns.
-/
namespace RevenueRecovery

/-- The decision of a call that returns no stored one. `upstream`, `locked` and `admission`
are what its statements read before the version lock, under it and under the global lock. -/
def decideFresh (policy : InterventionPolicy) (upstream locked admission : Reads)
    (ref : AttemptRef) (tDecide : Time) : Except ServiceError InterventionDecision := do
  let ctx ← decisionContext upstream ref tDecide
  let verdict := tentativeVerdict policy ctx (cooldowns policy (locked.shift 1) ctx)
  if verdict.decisionType = .act then return decideAdmitted policy admission ctx verdict
  else return newDecision policy (locked.db (policy.routes.length + 1)) ctx verdict

/-- What a call returns: a decision of its fingerprint that is stored, before the version
lock or under it, or the one it makes. -/
def decideCall (policy : InterventionPolicy) (upstream locked admission : Reads)
    (ref : AttemptRef) (tDecide : Time) : Except ServiceError InterventionDecision := do
  match ← decideUpstream policy upstream ref tDecide with
  | .inl d => return d
  | .inr ctx =>
      match decideLocked policy locked ctx with
      | .stored d => return d
      | .append d => return d
      | .tentativeAct verdict => return decideAdmitted policy admission ctx verdict

section Fingerprint
variable {policy policy' : InterventionPolicy} {ctx ctx' : DecisionContext}
  {upstream locked admission : Reads} {ref : AttemptRef} {tDecide : Time}
  {d : InterventionDecision}

/-- The facts a fingerprint covers. -/
theorem fingerprint_eq_iff :
    ctx.fingerprint policy = ctx'.fingerprint policy' ↔
      ctx.ref.paymentAttemptId = ctx'.ref.paymentAttemptId ∧ ctx.tDecide = ctx'.tDecide ∧
      ctx.amountMinorUnits = ctx'.amountMinorUnits ∧ ctx.currency = ctx'.currency ∧
      ctx.prediction.map (·.predictionId) = ctx'.prediction.map (·.predictionId) ∧
      ctx.prediction.bind (·.failureProbability) = ctx'.prediction.bind (·.failureProbability) ∧
      ctx.prediction.map (·.predictionStatus) = ctx'.prediction.map (·.predictionStatus) ∧
      ctx.degradation.episode.map (·.episodeId) = ctx'.degradation.episode.map (·.episodeId) ∧
      ctx.degradation.episode.map (·.status) = ctx'.degradation.episode.map (·.status) ∧
      ctx.degradation.rca.map (·.1.classification) =
        ctx'.degradation.rca.map (·.1.classification) ∧
      ctx.candidate.map (·.candidateDimension) = ctx'.candidate.map (·.candidateDimension) ∧
      ctx.candidate.map (·.candidateValue) = ctx'.candidate.map (·.candidateValue) ∧
      ctx.evidenceStrength = ctx'.evidenceStrength ∧
      policy.policyId = policy'.policyId ∧ policy.policyVersion = policy'.policyVersion := by
  simp [DecisionContext.fingerprint]

theorem storedDecision_fingerprint {db : Database} (h : storedDecision policy db ctx = some d) :
    d.inputFingerprint = ctx.fingerprint policy := by
  simpa using (Option.filter_eq_some_iff.mp h).2

theorem decideFresh_fingerprint (hctx : decisionContext upstream ref tDecide = .ok ctx)
    (hd : decideFresh policy upstream locked admission ref tDecide = .ok d) :
    d.inputFingerprint = ctx.fingerprint policy := by
  simp only [decideFresh, hctx, bind, Except.bind, pure, Except.pure] at hd
  split at hd <;> cases hd <;> rfl

/-- A call returns a decision of the fingerprint of its inputs. -/
theorem decideCall_fingerprint (hctx : decisionContext upstream ref tDecide = .ok ctx)
    (hd : decideCall policy upstream locked admission ref tDecide = .ok d) :
    d.inputFingerprint = ctx.fingerprint policy := by
  unfold decideCall decideUpstream at hd
  simp only [hctx, bind, Except.bind, pure, Except.pure] at hd
  cases hupstream : storedDecision policy (upstream.db 16) ctx with
  | some stored =>
      simp only [hupstream, Except.ok.injEq] at hd
      exact hd ▸ storedDecision_fingerprint hupstream
  | none =>
      simp only [hupstream] at hd
      unfold decideLocked at hd
      cases hlocked : storedDecision policy (locked.db 0) ctx with
      | some stored =>
          simp only [hlocked, Except.ok.injEq] at hd
          exact hd ▸ storedDecision_fingerprint hlocked
      | none =>
          simp only [hlocked] at hd
          split at hd <;> rename_i heq <;> split at heq <;> cases heq <;> cases hd <;> rfl

end Fingerprint

namespace FingerprintExample

def ref : AttemptRef := ⟨razorpaySourceSystem, "pay_1", "pay_1", validAttemptIdentity_pay_1⟩

def authorization : PaymentEvent :=
  { eventId := 0, sourceSystem := razorpaySourceSystem, sourceEventId := "a",
    paymentId := "pay_1", timestamp := 0, eventType := pipelineTriggerEventType,
    currency := "INR", amountMinorUnits := 10000, paymentStatus := "authorized",
    ingestedAt := 0 }

/-- A capture ingested before the decision. -/
def capture (i : ℕ) (paymentId : String) : PaymentEvent :=
  { authorization with
    eventId := i, sourceEventId := paymentId, paymentId := paymentId, timestamp := 1
    eventType := capturedEventType, paymentStatus := "captured", ingestedAt := 5 }

def prediction : FailurePrediction :=
  { predictionId := ⟨"pay_1", 1⟩
    paymentAttemptId := "pay_1"
    sourceSystem := razorpaySourceSystem
    predictionVersion := 1
    predictedAt := 0
    predictionHorizon := "30m"
    failureProbability := some (4 / 5)
    riskBand := some .high
    predictionStatus := .predicted
    modelName := "DeterministicBaselineModel"
    modelVersion := "untrained-heuristic-v2"
    featureSchemaVersion := "v1.0.0"
    featureSnapshot := none
    inputFingerprint := ⟨"pay_1", 0, "30m", none, "DeterministicBaselineModel",
      "untrained-heuristic-v2", "v1.0.0"⟩ }

/-- An authorized and predicted payment. -/
def before : Database :=
  { events := [authorization]
    attempts := [⟨"pay_1", razorpaySourceSystem, "pay_1", 0⟩]
    predictions := [prediction] }

/-- The decision from scratch on one store. -/
def fresh (db : Database) : Except ServiceError InterventionDecision :=
  decideFresh getDefaultPolicy (.all db) (.all db) (.all db) ref 10

theorem fresh_eq_ok {db : Database} {d : InterventionDecision}
    (h : (fresh db).toOption = some d) : fresh db = .ok d := by
  cases hd : fresh db with
  | ok d' => rw [hd] at h; exact congrArg Except.ok (Option.some.inj h)
  | error e => rw [hd] at h; cases h

/-- What a call on one store returns. -/
def call (db : Database) : Except ServiceError InterventionDecision :=
  decideCall getDefaultPolicy (.all db) (.all db) (.all db) ref 10

/-- The decision is stored, and the capture of its payment has become visible. -/
def after : Database :=
  { before with
    events := before.events ++ [capture 1 "pay_1"]
    decisions := (fresh before).toOption.toList }

end FingerprintExample

open FingerprintExample in
/-- The stored `ACT` decision is returned although a terminal event ingested before the
decision time is now known, and the gates would refuse to act. -/
theorem decideFresh_ne : ∃ d d', fresh before = .ok d ∧ fresh after = .ok d' ∧
    call before = .ok d ∧ call after = .ok d ∧
    d.inputFingerprint = d'.inputFingerprint ∧ d.decisionType = .act ∧
    d'.decisionType = .noAction ∧ d'.gateVerdict = .failedTerminalOutcomeIngested := by
  have hfacts : ((fresh before).toOption.bind fun d => (fresh after).toOption.map fun d' =>
      decide (call before = .ok d ∧ call after = .ok d ∧
        d.inputFingerprint = d'.inputFingerprint ∧ d.decisionType = .act ∧
        d'.decisionType = .noAction ∧
        d'.gateVerdict = .failedTerminalOutcomeIngested)) = some true := by
    decide +kernel
  obtain ⟨d, hd, hfacts⟩ := Option.bind_eq_some_iff.mp hfacts
  obtain ⟨d', hd', hfacts⟩ := Option.map_eq_some_iff.mp hfacts
  exact ⟨d, d', fresh_eq_ok hd, fresh_eq_ok hd', of_decide_eq_true hfacts⟩

end RevenueRecovery
