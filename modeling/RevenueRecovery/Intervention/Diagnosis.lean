import RevenueRecovery.Intervention.Specification
import RevenueRecovery.Lib.Follow
import RevenueRecovery.Services.Transactions

/-!
# Stage 6: the diagnosis a decision acts on

A route that requires a diagnosis is taken for a payment of the diagnosed segment. Whether
the payment is of it, a decision looks up in the features of the prediction it reads; the
diagnosis itself it reads as of its own time. In between the segment can have moved away
from the payment, and only then does a decision act outside of it (`acts_in_segment`).

## Main definitions
* `DecisionContext.InDiagnosedSegment` : the payment has the primary candidate's value.
* `DecisionContext.MovedAway` : what has changed since the prediction.
* `DecideReturns` : a call returns a decision on the facts it has read.
* `AdmitsRoute` : a call is about to return a decision to act.
* `returnsInSegment`, `admitsUnmoved` : the property and the condition, of one step.
-/
namespace RevenueRecovery

open Transaction

/-- A payment's own value of a dimension of the diagnosis. -/
def ownValue (bank wallet paymentMethod : Option String) (currency dimension : String) :
    Option String :=
  if dimension = "BANK" then bank
  else if dimension = "WALLET" then wallet
  else if dimension = "PAYMENT_METHOD" then paymentMethod
  else if dimension = "CURRENCY" then some currency
  else none

def PaymentEvent.valueOf (e : PaymentEvent) : String → Option String :=
  ownValue e.bank e.wallet e.paymentMethod e.currency

/-! ## Features -/

namespace FeatureSnapshot
variable (f : FeatureSnapshot)

/-- The value that the features have recorded. -/
def valueOf : String → Option String := ownValue f.bank f.wallet f.paymentMethod f.currency

/-- A recorded match is one of the payment's recorded value with the recorded candidate. -/
def Accountable : Prop :=
  f.rcaCandidateMatchesPaymentSegment = some true → ∃ dimension value,
    f.rcaCandidateDimension = some dimension ∧ f.rcaCandidateValue = some value ∧
      f.valueOf dimension = some value

end FeatureSnapshot

theorem matchesSegment_iff {e : PaymentEvent} {dimension value : String} :
    matchesSegment e dimension value = true ↔ e.valueOf dimension = some value := by
  simp only [matchesSegment, PaymentEvent.valueOf, ownValue, Bool.or_eq_true, Bool.and_eq_true,
    beq_iff_eq]
  split_ifs <;> simp_all

/-- The candidate that matches is the one of a segment, with the payment's own value. -/
theorem candidateMatches_eq_true {e : PaymentEvent}
    {rca : RootCauseAnalysisEvaluation × Option CandidateCause} :
    candidateMatches e rca = some true ↔ rca.1.classification = .segmentSpecific ∧
      ∃ c, rca.2 = some c ∧ e.valueOf c.candidateDimension = some c.candidateValue := by
  obtain ⟨evaluation, candidate⟩ := rca
  cases candidate with
  | none => simp [candidateMatches]
  | some c =>
      cases hclass : evaluation.classification <;>
        simp [candidateMatches, hclass, matchesSegment_iff]

/-- The features of an attempt record what their match comes from. -/
theorem reconstructFeatures_accountable {r : Reads} {paymentAttemptId : String} {t : Time}
    {f : FeatureSnapshot} (h : reconstructFeatures r paymentAttemptId t = some f) :
    f.Accountable := by
  obtain ⟨auth, -, rfl⟩ := Option.map_eq_some_iff.mp h
  intro hmatch
  obtain ⟨rca, hrca, hmatch⟩ := Option.bind_eq_some_iff.mp hmatch
  obtain ⟨-, c, hc, hvalue⟩ := candidateMatches_eq_true.mp hmatch
  have hcandidate : (degradationContext (r.shift 11) auth t).rca.bind Prod.snd = some c :=
    Option.bind_eq_some_iff.mpr ⟨rca, hrca, hc⟩
  refine ⟨c.candidateDimension, c.candidateValue, ?_, ?_, hvalue⟩ <;>
    exact Option.map_eq_some_iff.mpr ⟨c, hcandidate, rfl⟩

theorem predictionInputs_accountable {r : Reads} {ref : AttemptRef} {t : Time}
    {f : FeatureSnapshot} (h : (predictionInputs r ref t).2 = some f) : f.Accountable := by
  unfold predictionInputs at h
  split at h
  · cases hf : reconstructFeatures (r.shift 1) ref.paymentAttemptId t with
    | none => simp [hf] at h
    | some f' =>
        obtain rfl : f' = f := by simpa [hf] using h
        exact reconstructFeatures_accountable hf
  · cases h

theorem orchestratePrediction_accountable {model : FailurePredictionModel} {r : Reads}
    {ref : AttemptRef} {t : Time} {inputs : PredictionStatus × Option FeatureSnapshot}
    {f : FeatureSnapshot} (h : orchestratePrediction model r ref t = .ok (.inr inputs))
    (hf : inputs.2 = some f) : f.Accountable := by
  have hinputs : inputs = predictionInputs (r.shift 1) ref t := by
    unfold orchestratePrediction at h
    cases hreq : (r.db 0).require ref with
    | error e => simp [hreq, bind, Except.bind] at h
    | ok row =>
        simp only [hreq, bind, Except.bind, pure, Except.pure] at h
        split at h
        · split at h <;> cases h
          rfl
        · cases h
          rfl
  exact predictionInputs_accountable (hinputs ▸ hf)

namespace FailurePrediction
variable (p : FailurePrediction)

/-- The prediction recorded that the payment is of the diagnosed segment of its time. -/
def RecordedMatch : Prop :=
  p.featureSnapshot.bind (·.rcaCandidateMatchesPaymentSegment) = some true

def Accountable : Prop := ∀ f, p.featureSnapshot = some f → f.Accountable

end FailurePrediction

/-! ## One decision -/

namespace DecisionContext
variable (ctx : DecisionContext)

/-- The diagnosis is of a segment. -/
def SegmentSpecific : Prop :=
  ctx.degradation.rca.map (·.1.classification) = some .segmentSpecific

/-- The payment's own value of the primary candidate's dimension is the candidate's. -/
def InDiagnosedSegment : Prop :=
  ∃ e c, ctx.auth = some e ∧ ctx.candidate = some c ∧
    e.valueOf c.candidateDimension = some c.candidateValue

/-- The candidate that has been read, and the payment's value in its dimension, are those
that the prediction recorded. -/
def SegmentKept : Prop :=
  ∃ f e c, ctx.prediction.bind (·.featureSnapshot) = some f ∧ ctx.auth = some e ∧
    ctx.candidate = some c ∧ f.rcaCandidateDimension = some c.candidateDimension ∧
    f.rcaCandidateValue = some c.candidateValue ∧
    f.valueOf c.candidateDimension = e.valueOf c.candidateDimension

/-- Features computed from the facts that have been read would record a match. -/
def WouldMatch : Prop :=
  ∃ e rca, ctx.auth = some e ∧ ctx.degradation.rca = some rca ∧
    candidateMatches e rca = some true

/-- Since the prediction the candidate or the payment's value has changed, and not to one
that matches. -/
def MovedAway : Prop := ¬ctx.SegmentKept ∧ ¬ctx.WouldMatch

end DecisionContext

/-- The route of the key requires a diagnosis; the routes of a policy have distinct keys. -/
def RequiresDiagnosis (policy : InterventionPolicy) (key : InterventionRouteKey) : Prop :=
  ∀ route ∈ policy.routes, route.routeKey = key → route.requiresDiagnosis = true

/-- A decision to act on a diagnosis of a segment acts on a payment of the segment. -/
def ActsInSegment (policy : InterventionPolicy) (ctx : DecisionContext)
    (d : InterventionDecision) : Prop :=
  d.decisionType = .act → ∀ key, d.selectedRouteId = some key → RequiresDiagnosis policy key →
    ctx.SegmentSpecific → ctx.InDiagnosedSegment

section Decision
variable {policy : InterventionPolicy} {ctx : DecisionContext}
  {onCooldown : InterventionRouteKey → Bool} {key : InterventionRouteKey}

/-- A route that requires a diagnosis is eligible under a diagnosis of a segment only when
the prediction recorded a match. -/
theorem RouteEligible.recordedMatch {route : RoutePolicyDefinition}
    (h : RouteEligible ctx onCooldown route) (hrequires : route.requiresDiagnosis = true)
    (hseg : ctx.SegmentSpecific) :
    ∃ p, ctx.prediction = some p ∧ p.RecordedMatch := by
  have hclass : ctx.routeFacts.rcaClassification = some .segmentSpecific := hseg
  have hflag : ctx.routeFacts.rcaCandidateMatchesPaymentSegment = some true := by
    by_contra hne
    unfold RouteEligible evaluateRouteEligibility at h
    rw [hclass] at h
    simp only [hrequires, if_true] at h
    split_ifs at h
    rw [bne_iff_ne] at *
    contradiction
  obtain ⟨f, hf, hmatch⟩ := Option.bind_eq_some_iff.mp hflag
  obtain ⟨p, hp, hsnapshot⟩ := Option.bind_eq_some_iff.mp hf
  exact ⟨p, hp, Option.bind_eq_some_iff.mpr ⟨f, hsnapshot, hmatch⟩⟩

/-- So is a verdict that acts through it. -/
theorem tentativeVerdict_recordedMatch
    (hact : (tentativeVerdict policy ctx onCooldown).decisionType = .act)
    (hkey : (tentativeVerdict policy ctx onCooldown).selectedRoute = some key)
    (hrequires : RequiresDiagnosis policy key) (hseg : ctx.SegmentSpecific) :
    ∃ p, ctx.prediction = some p ∧ p.RecordedMatch := by
  obtain ⟨-, -, hbest⟩ := tentativeVerdict_act.mp ⟨hact, hkey⟩
  obtain ⟨-, route, ⟨hroute, heligible, -⟩, hrk⟩ := rankedCandidates_best.mp hbest
  exact heligible.recordedMatch (hrequires route hroute hrk) hseg

theorem wouldMatch_iff (hseg : ctx.SegmentSpecific) :
    ctx.WouldMatch ↔ ctx.InDiagnosedSegment := by
  constructor
  · rintro ⟨e, rca, he, hrca, hmatch⟩
    obtain ⟨-, c, hc, hvalue⟩ := candidateMatches_eq_true.mp hmatch
    exact ⟨e, c, he, Option.bind_eq_some_iff.mpr ⟨rca, hrca, hc⟩, hvalue⟩
  · rintro ⟨e, c, he, hc, hvalue⟩
    obtain ⟨rca, hrca, hc⟩ := Option.bind_eq_some_iff.mp hc
    obtain ⟨rca', hrca', hclass⟩ := Option.map_eq_some_iff.mp hseg
    obtain rfl := Option.some.inj (hrca.symm.trans hrca')
    exact ⟨e, rca, he, hrca, candidateMatches_eq_true.mpr ⟨hclass, c, hc, hvalue⟩⟩

/-- A segment that has not changed since a recorded match is still the payment's. -/
theorem inDiagnosedSegment_of_kept {p : FailurePrediction} (hp : ctx.prediction = some p)
    (hmatch : p.RecordedMatch) (hp' : p.Accountable) (hkept : ctx.SegmentKept) :
    ctx.InDiagnosedSegment := by
  obtain ⟨f, e, c, hf, he, hc, hdimension, hvalue, hown⟩ := hkept
  obtain ⟨f', hf', hmatch⟩ := Option.bind_eq_some_iff.mp hmatch
  obtain rfl : f' = f := by
    rw [hp] at hf
    exact Option.some.inj (hf'.symm.trans hf)
  obtain ⟨dimension, value, hdimension', hvalue', hrecorded⟩ := hp' f' hf' hmatch
  obtain rfl := Option.some.inj (hdimension.symm.trans hdimension')
  obtain rfl := Option.some.inj (hvalue.symm.trans hvalue')
  exact ⟨e, c, he, hc, hown.symm.trans hrecorded⟩

/-- After a recorded match the payment is of the segment unless it has moved away. -/
theorem inDiagnosedSegment_iff {p : FailurePrediction} (hp : ctx.prediction = some p)
    (hmatch : p.RecordedMatch) (hp' : p.Accountable) (hseg : ctx.SegmentSpecific) :
    ctx.InDiagnosedSegment ↔ ¬ctx.MovedAway := by
  constructor
  · exact fun hin hmoved => hmoved.2 ((wouldMatch_iff hseg).mpr hin)
  · intro hmoved
    by_cases hkept : ctx.SegmentKept
    · exact inDiagnosedSegment_of_kept hp hmatch hp' hkept
    · exact (wouldMatch_iff hseg).mp (not_not.mp fun hwould => hmoved ⟨hkept, hwould⟩)

end Decision

/-! ## Decisions that are returned -/

/-- A call returns a decision, stored or new, on the facts it has read. -/
inductive DecideReturns (policy : InterventionPolicy) (r : Reads) :
    CallProc → DecisionContext → InterventionDecision → Prop
  | upstream {ref t ctx d} (hctx : decisionContext r ref t = .ok ctx)
      (h : decideUpstream policy r ref t = .ok (.inl d)) :
      DecideReturns policy r (.decide ref t) ctx d
  | stored {ctx d} (h : decideLocked policy r ctx = .stored d) :
      DecideReturns policy r (.decideLocked ctx) ctx d
  | appended {ctx d} (h : decideLocked policy r ctx = .append d) :
      DecideReturns policy r (.decideLocked ctx) ctx d
  | admitted {ctx verdict} :
      DecideReturns policy r (.decideAdmit ctx verdict) ctx (decideAdmitted policy r ctx verdict)

/-- A call is about to return a decision to act through a route: one that is stored under
the fingerprint of the facts, or one of a verdict that the rate limit lets through. -/
inductive AdmitsRoute (policy : InterventionPolicy) (r : Reads) :
    CallProc → DecisionContext → InterventionRouteKey → Prop
  | upstream {ref t ctx d key} (hctx : decisionContext r ref t = .ok ctx)
      (hd : storedDecision policy (r.db 16) ctx = some d) (hact : d.decisionType = .act)
      (hkey : d.selectedRouteId = some key) : AdmitsRoute policy r (.decide ref t) ctx key
  | stored {ctx d key} (hd : storedDecision policy (r.db 0) ctx = some d)
      (hact : d.decisionType = .act) (hkey : d.selectedRouteId = some key) :
      AdmitsRoute policy r (.decideLocked ctx) ctx key
  | admitted {ctx verdict key}
      (hlimit : countRecentActDecisions (r.db 0) (ctx.tDecide - Time.seconds 60) <
        policy.globalRateLimitPerMinute)
      (hact : verdict.decisionType = .act) (hkey : verdict.selectedRoute = some key) :
      AdmitsRoute policy r (.decideAdmit ctx verdict) ctx key

/-- A stored decision acts on a diagnosis of a segment only with a prediction that recorded
a match. -/
def HasRecordedMatch (policy : InterventionPolicy) (db : Database) (d : InterventionDecision) :
    Prop :=
  d.decisionType = .act → ∀ key, d.selectedRouteId = some key → RequiresDiagnosis policy key →
    d.inputFingerprint.rcaClassification = some .segmentSpecific →
      ∃ p ∈ db.predictions, d.inputFingerprint.stage5PredictionId = some p.predictionId ∧
        p.RecordedMatch

/-- The decisions of the store come from recorded matches, and these from the segments
recorded with them. -/
def RecordsMatches (policy : InterventionPolicy) (db : Database) : Prop :=
  (∀ d ∈ db.decisions, HasRecordedMatch policy db d) ∧ ∀ p ∈ db.predictions, p.Accountable

/-- What the store accounts for: the predictions and decisions a session appends. -/
def AppendsMatched (policy : InterventionPolicy) (db : Database) : Write → Prop
  | .appendPrediction p => p.Accountable
  | .appendDecision d => HasRecordedMatch policy db d
  | _ => True

/-- The facts of a call that waits for a lock. -/
def KnowsMatch (policy : InterventionPolicy) (db : Database) : TransactionProc → Prop
  | .calling (.predictLocked _ _ inputs) => ∀ f, inputs.2 = some f → f.Accountable
  | .calling (.decideLocked ctx) => ∀ p, ctx.prediction = some p → p ∈ db.predictions
  | .calling (.decideAdmit ctx verdict) =>
      (∀ p, ctx.prediction = some p → p ∈ db.predictions) ∧
        (verdict.decisionType = .act → ∀ key, verdict.selectedRoute = some key →
          RequiresDiagnosis policy key → ctx.SegmentSpecific →
          ∃ p, ctx.prediction = some p ∧ p.RecordedMatch)
  | _ => True

section Steps
variable {policy : InterventionPolicy} {db db' : Database} {d : InterventionDecision}
  {ctx : DecisionContext} {r : Reads} {key : InterventionRouteKey} {p : CallProc}

theorem HasRecordedMatch.mono (h : HasRecordedMatch policy db d) (hkeeps : Keeps db db') :
    HasRecordedMatch policy db' d := by
  intro hact key hkey hrequires hseg
  obtain ⟨p, hp, hid, hmatch⟩ := h hact key hkey hrequires hseg
  exact ⟨p, hkeeps.predictions hp, hid, hmatch⟩

theorem AppendsMatched.mono {w : Write} (h : AppendsMatched policy db w)
    (hkeeps : Keeps db db') : AppendsMatched policy db' w := by
  cases w with
  | appendDecision d => exact HasRecordedMatch.mono h hkeeps
  | appendPrediction p => exact h
  | _ => trivial

theorem KnowsMatch.mono {p : TransactionProc} (h : KnowsMatch policy db p)
    (hkeeps : Keeps db db') : KnowsMatch policy db' p := by
  unfold KnowsMatch at h ⊢
  split
  · exact h
  · exact fun p hp => hkeeps.predictions (h p hp)
  · exact ⟨fun p hp => hkeeps.predictions (h.1 p hp), h.2⟩
  · trivial

theorem decideLocked_eq_stored (h : decideLocked policy r ctx = .stored d) :
    storedDecision policy (r.db 0) ctx = some d := by
  unfold decideLocked at h
  cases hstored : storedDecision policy (r.db 0) ctx with
  | some d' =>
      simp only [hstored, LockedOutcome.stored.injEq] at h
      rw [h]
  | none =>
      simp only [hstored] at h
      split at h <;> cases h

theorem decideLocked_eq_tentativeAct {verdict : Verdict}
    (h : decideLocked policy r ctx = .tentativeAct verdict) :
    verdict = tentativeVerdict policy ctx (cooldowns policy (r.shift 1) ctx) := by
  unfold decideLocked at h
  split at h
  · cases h
  · dsimp only at h
    split at h <;> cases h
    rfl

/-- A decision appended under the version lock does not act. -/
theorem decideLocked_eq_append (h : decideLocked policy r ctx = .append d) :
    d.decisionType ≠ .act := by
  rcases decideLocked_spec policy r ctx with ⟨_, hs, -⟩ | ⟨verdict, hs, hact⟩ | ⟨_, hs, -⟩
  · simp [h] at hs
  · obtain rfl : d = _ := by simpa [h] using hs
    exact hact
  · simp [h] at hs

/-- Below the rate limit the decision is that of the verdict. -/
theorem decideAdmitted_of_lt {verdict : Verdict}
    (h : countRecentActDecisions (r.db 0) (ctx.tDecide - Time.seconds 60) <
      policy.globalRateLimitPerMinute) :
    decideAdmitted policy r ctx verdict = newDecision policy (r.db 1) ctx verdict := by
  rw [decideAdmitted, if_neg (Nat.not_le.mpr h)]

/-- A call returns a decision to act exactly when it is about to admit its route. -/
theorem returns_act_iff :
    (∃ d, DecideReturns policy r p ctx d ∧ d.decisionType = .act ∧
        d.selectedRouteId = some key) ↔ AdmitsRoute policy r p ctx key := by
  constructor
  · rintro ⟨d, hreturns, hact, hkey⟩
    cases hreturns with
    | upstream hctx hup =>
        obtain ⟨ctx', hctx', ⟨d', hd', hstored⟩ | hres⟩ := decideUpstream_cases hup
        · obtain rfl := Except.ok.inj (hctx.symm.trans hctx')
          cases hd'
          exact .upstream hctx hstored hact hkey
        · cases hres
    | stored hlocked => exact .stored (decideLocked_eq_stored hlocked) hact hkey
    | appended hlocked => exact absurd hact (decideLocked_eq_append hlocked)
    | admitted =>
        have hlimit := decideAdmitted_act hact
        rw [decideAdmitted_of_lt hlimit] at hact hkey
        exact .admitted hlimit hact hkey
  · intro hadmits
    cases hadmits with
    | @upstream _ _ _ d _ hctx hd hact hkey =>
        refine ⟨d, .upstream hctx ?_, hact, hkey⟩
        simp [decideUpstream, hctx, hd, bind, Except.bind, pure, Except.pure]
    | @stored _ d _ hd hact hkey =>
        refine ⟨d, .stored ?_, hact, hkey⟩
        simp only [decideLocked, hd]
    | admitted hlimit hact hkey =>
        refine ⟨_, .admitted, ?_⟩
        rw [decideAdmitted_of_lt hlimit]
        exact ⟨hact, hkey⟩

/-- The decision made under the global lock acts with a prediction that recorded a match. -/
theorem decideAdmitted_hasRecordedMatch {verdict : Verdict}
    (hknows : KnowsMatch policy db (.calling (.decideAdmit ctx verdict))) :
    HasRecordedMatch policy db (decideAdmitted policy r ctx verdict) := by
  intro hact key hkey hrequires hseg
  have hlimit := decideAdmitted_act hact
  rw [decideAdmitted_of_lt hlimit] at hact hkey hseg ⊢
  obtain ⟨p, hp, hmatch⟩ := hknows.2 hact key hkey hrequires hseg
  refine ⟨p, hknows.1 p hp, ?_, hmatch⟩
  change ctx.prediction.map (·.predictionId) = some p.predictionId
  rw [hp]
  rfl

/-- A decision of the fingerprint of the facts acts with the prediction that was read. -/
theorem recordedMatch_of_fingerprint (hunique : Unique db)
    (hprediction : ∀ p, ctx.prediction = some p → p ∈ db.predictions)
    (hmatched : HasRecordedMatch policy db d)
    (hfingerprint : d.inputFingerprint = ctx.fingerprint policy) (hact : d.decisionType = .act)
    (hkey : d.selectedRouteId = some key) (hrequires : RequiresDiagnosis policy key)
    (hseg : ctx.SegmentSpecific) : ∃ p, ctx.prediction = some p ∧ p.RecordedMatch := by
  obtain ⟨p, hp, hid, hmatch⟩ := hmatched hact key hkey hrequires (by rw [hfingerprint]; exact hseg)
  rw [hfingerprint] at hid
  obtain ⟨q, hq, hqid⟩ := Option.map_eq_some_iff.mp hid
  obtain rfl := hunique.prediction_eq (hprediction q hq) hp hqid
  exact ⟨q, hq, hmatch⟩

end Steps

/-! ## Runs -/

section Runs
variable {model : FailurePredictionModel} {policy : InterventionPolicy}

/-- A decision that a call returns acts, on a diagnosis of a segment, in that segment. -/
def returnsInSegment (model : FailurePredictionModel) (policy : InterventionPolicy)
    (db : Database) (s : TransactionSession) (input : TransactionInput) : Prop :=
  ∀ p ctx d, s.proc = .calling p →
    DecideReturns policy (input.reads ((transactionProgram model policy).reads db s)) p ctx d →
    ActsInSegment policy ctx d

/-- A call that is about to act on a diagnosis of a segment does so before the segment has
moved away. -/
def admitsUnmoved (model : FailurePredictionModel) (policy : InterventionPolicy)
    (db : Database) (s : TransactionSession) (input : TransactionInput) : Prop :=
  ∀ p ctx key, s.proc = .calling p →
    AdmitsRoute policy (input.reads ((transactionProgram model policy).reads db s)) p ctx key →
    RequiresDiagnosis policy key → ctx.SegmentSpecific → ¬ctx.MovedAway

/-- What a step of a call does with matches. -/
def MatchedStep (policy : InterventionPolicy) (view : Database) : CallOutcome → Prop
  | .write ws next => (∀ w ∈ ws, AppendsMatched policy (ws.foldl Database.apply view) w) ∧
      KnowsMatch policy (ws.foldl Database.apply view) (.calling next)
  | .lock _ next | .call _ next => KnowsMatch policy view (.calling next)
  | .commit _ | .rollback _ => True

theorem CallStepped.matched {input : CallInput} {reads : ℕ → Database} {now view : Database}
    {p : CallProc} {o : CallOutcome} (h : CallStepped model policy input reads now p o)
    (hreads : ∀ k, Keeps (reads k) view) (hknows : KnowsMatch policy view (.calling p)) :
    MatchedStep policy view o := by
  cases h with
  | predictLock h => exact fun f hf => orchestratePrediction_accountable h hf
  | predicted =>
      refine ⟨fun w hw => ?_, trivial⟩
      obtain rfl := List.mem_singleton.mp hw
      exact hknows
  | decideLock hup =>
      obtain ⟨ctx, hctx, ⟨d, hd, -⟩ | hres⟩ := decideUpstream_cases hup
      · cases hd
      · cases hres
        exact fun p hp => (hreads 3).predictions (decisionContext_prediction hctx hp)
  | @lockedAct ctx verdict hres =>
      refine ⟨hknows, fun hact key hkey hrequires hseg => ?_⟩
      rw [decideLocked_eq_tentativeAct hres] at hact hkey
      exact tentativeVerdict_recordedMatch hact hkey hrequires hseg
  | @lockedAppend ctx d hres =>
      refine ⟨fun w hw => ?_, trivial⟩
      obtain rfl := List.mem_singleton.mp hw
      exact fun hact => absurd hact (decideLocked_eq_append hres)
  | @admitted ctx verdict =>
      refine ⟨fun w hw => ?_, trivial⟩
      obtain rfl := List.mem_singleton.mp hw
      exact (decideAdmitted_hasRecordedMatch hknows).mono (.foldl view _)
  | @executing id t q o' hq hex =>
      cases o' with
      | write ws next =>
          refine ⟨fun w hw => ?_, trivial⟩
          have hown := executeStep_write hex w hw
          cases w <;> trivial
      | _ => trivial
  | attributeLock => trivial
  | _ => exact ⟨by simp [AppendsMatched], trivial⟩

/-- Transactions of calls append matched decisions. -/
theorem transactionProgram_matched (model : FailurePredictionModel)
    (policy : InterventionPolicy) :
    (transactionProgram model policy).Provenance Keeps (RecordsMatches policy)
      (AppendsMatched policy) (fun _ _ _ => True) fun view _ p => KnowsMatch policy view p where
  grows := transactionProgram_grows model policy
  lasting hkeeps h := h.mono hkeeps
  collect {db ws} h hws := by
    rw [applyAll_eq_foldl rfl] at hws ⊢
    constructor
    · intro d hd
      rcases (Adds.foldl db ws).decisions d hd with hold | hnew
      · exact (h.1 d hold).mono (.foldl db ws)
      · exact hws _ hnew
    · intro p hp
      exact ((Adds.foldl db ws).predictions p hp).elim (h.2 p) (hws _)
  knowing hkeeps h := KnowsMatch.mono h hkeeps
  arrive {db x ws ps} harr := by
    obtain ⟨rfl, rfl⟩ := transactionProgram_arrive harr
    cases x with
    | event row => exact ⟨by simp [TransactionArrival.effect, AppendsMatched],
        by simp [TransactionArrival.effect]⟩
    | connect => exact ⟨by simp [TransactionArrival.effect],
        by simp [TransactionArrival.effect, KnowsMatch]⟩
  error _ _ := trivial
  step {db s input o} _ hreads hknows _ ho := by
    have hwrote : ∀ ws next, (transactionProgram model policy).view db (s.wrote ws next) =
        ws.foldl Database.apply ((transactionProgram model policy).view db s) :=
      fun ws next => Program.view_wrote _ db s ws next
    cases transactionStepped ho with
    | requested hproc =>
        cases hr : input.request with
        | commit => exact fun _ => trivial
        | rollback => exact fun _ => trivial
        | registerAttempt | storeAnalytics => exact ⟨by simp [AppendsMatched], trivial⟩
        | _ => exact ⟨by simp, trivial⟩
    | returned => exact ⟨by simp, trivial⟩
    | raised => exact fun _ => trivial
    | @called p o' hproc hp hcall =>
        rw [hproc] at hknows
        have hcalled := hcall.matched hreads hknows
        cases o' with
        | write ws next =>
            simp only [Outcome.map, hwrote]
            exact hcalled
        | lock | call => exact hcalled
        | commit next => exact absurd rfl (hcall.inside.1 next)
        | rollback next => exact absurd rfl (hcall.inside.2 next)

/-- In every run, what a call is about to act on has a prediction with a recorded match, and
that prediction recorded the segment. -/
theorem admitsRoute_recordedMatch {as : List TransactionAction} {w : TransactionWorld}
    (h : transactionRun model policy as = some w) {s : TransactionSession}
    (hs : s ∈ w.sessions) {input : TransactionInput} {p : CallProc} {ctx : DecisionContext}
    {key : InterventionRouteKey} (hproc : s.proc = .calling p)
    (hadmits : AdmitsRoute policy
      (input.reads ((transactionProgram model policy).reads w.db s)) p ctx key)
    (hrequires : RequiresDiagnosis policy key) (hseg : ctx.SegmentSpecific) :
    ∃ q, ctx.prediction = some q ∧ q.RecordedMatch ∧ q.Accountable := by
  have hmatched := transactionProgram_matched model policy
  have hconstraints : (transactionProgram model policy).Constraints Write.conflicts Unique :=
    Database.constraints rfl rfl rfl
  have hgood := (hmatched.invariant.and hconstraints.invariant).exec_true
    (.empty ⟨⟨by simp, by simp⟩, Unique.empty⟩) h
  obtain ⟨hkept, hpending⟩ := hgood.session s hs
  have hview := hkept.view hmatched hgood.store.1
  have hunique := hconstraints.keep_applyAll hgood.store.2 hpending
  have hreads := hkept.reads hmatched
  have hknows := hkept.knows
  rw [hproc] at hknows
  have hrecorded : (∀ q, ctx.prediction = some q →
      q ∈ ((transactionProgram model policy).view w.db s).predictions) ∧
      ∃ q, ctx.prediction = some q ∧ q.RecordedMatch := by
    cases hadmits with
    | @upstream _ _ _ d _ hctx hd hact hkey =>
        have hprediction := fun q hq =>
          (hreads 3).predictions (decisionContext_prediction hctx (p := q) hq)
        exact ⟨hprediction, recordedMatch_of_fingerprint hunique hprediction
          (hview.1 d ((hreads 16).decisions (storedDecision_mem hd)))
          (storedDecision_fingerprint hd) hact hkey hrequires hseg⟩
    | @stored _ d _ hd hact hkey =>
        exact ⟨hknows, recordedMatch_of_fingerprint hunique hknows
          (hview.1 d ((hreads 0).decisions (storedDecision_mem hd)))
          (storedDecision_fingerprint hd) hact hkey hrequires hseg⟩
    | admitted hlimit hact hkey => exact ⟨hknows.1, hknows.2 hact key hkey hrequires hseg⟩
  obtain ⟨hprediction, q, hq, hmatch⟩ := hrecorded
  exact ⟨q, hq, hmatch, hview.2 q (hprediction q hq)⟩

/-- In every run, a decision that is returned acts, on a diagnosis of a segment, on a
payment of that segment, exactly when the route is admitted before the segment has moved
away from the payment. -/
theorem acts_in_segment (model : FailurePredictionModel) (policy : InterventionPolicy)
    (as : List TransactionAction) (w : TransactionWorld)
    (h : transactionRun model policy as = some w) (a : TransactionAction) :
    Program.worldGuard (returnsInSegment model policy) w a ↔
      Program.worldGuard (admitsUnmoved model policy) w a := by
  cases a with
  | advance i input =>
      constructor
      · intro hreturns s hs p ctx key hproc hadmits hrequires hseg
        obtain ⟨q, hq, hmatch, hq'⟩ := admitsRoute_recordedMatch h (List.mem_of_getElem? hs)
          hproc hadmits hrequires hseg
        obtain ⟨d, hd, hact, hkey⟩ := returns_act_iff.mpr hadmits
        exact (inDiagnosedSegment_iff hq hmatch hq' hseg).mp
          (hreturns s hs p ctx d hproc hd hact key hkey hrequires hseg)
      · intro hunmoved s hs p ctx d hproc hd hact key hkey hrequires hseg
        have hadmits := returns_act_iff.mp ⟨d, hd, hact, hkey⟩
        obtain ⟨q, hq, hmatch, hq'⟩ := admitsRoute_recordedMatch h (List.mem_of_getElem? hs)
          hproc hadmits hrequires hseg
        exact (inDiagnosedSegment_iff hq hmatch hq' hseg).mpr
          (hunmoved s hs p ctx key hproc hadmits hrequires hseg)
  | _ => exact Iff.rfl

end Runs

/-! ### A diagnosis that stays, and one that changes -/

namespace DiagnosisExample

/-- The authorization of a payment through the bank HDFC. -/
def authorization : PaymentEvent :=
  { eventId := 0, sourceSystem := razorpaySourceSystem, sourceEventId := "a",
    paymentId := "pay_1", timestamp := 0, eventType := pipelineTriggerEventType,
    currency := "INR", amountMinorUnits := 10000, bank := some "HDFC",
    paymentStatus := "authorized", ingestedAt := 0 }

/-- The failure of another payment. -/
def failure (i : ℕ) : PaymentEvent :=
  { authorization with
    eventId := i + 1, sourceEventId := toString i, paymentId := toString i, timestamp := 1
    eventType := failedEventType, paymentStatus := "failed", ingestedAt := 1 }

def episodeId : EpisodeId := ⟨"GLOBAL", "ALL", 0⟩

/-- A version of the episode's analysis that names a bank. -/
def evaluation (version : ℕ) (generatedAt : Time) : RootCauseAnalysisEvaluation :=
  { evaluationId := ⟨episodeId, version⟩, episodeId := episodeId, evaluationVersion := version,
    classification := .segmentSpecific, analysisWindowStart := 0, analysisWindowEnd := 1,
    inputFingerprint := ⟨episodeId, .active, 0, 1, 50, 50, []⟩, generatedAt := generatedAt }

def candidate (version : ℕ) (bank : String) : CandidateCause :=
  { evaluationId := ⟨episodeId, version⟩, candidateDimension := "BANK", candidateValue := bank,
    evidenceStrength := .strong, excessFailureContribution := 1, actualSegmentFailures := 50,
    expectedSegmentFailures := 0, excessSegmentFailures := 50, rank := 1 }

/-- An active episode whose analysis names HDFC. -/
def diagnosed : AnalyticsTables :=
  { history := [⟨1, episodeId, "GLOBAL", "ALL", .active, .high, 0, 2⟩]
    evaluations := [evaluation 1 3]
    candidates := [candidate 1 "HDFC"] }

/-- The next version of the analysis names a bank again. -/
def revised (bank : String) : AnalyticsTables :=
  { diagnosed with
    evaluations := [evaluation 1 3, evaluation 2 12]
    candidates := [candidate 1 "HDFC", candidate 2 bank] }

def ref : AttemptRef := ⟨razorpaySourceSystem, "pay_1", "pay_1", validAttemptIdentity_pay_1⟩

/-- The connection's caller makes a request, and the call takes `n` more steps. -/
def call (r : Request) (n : ℕ) : List TransactionAction :=
  .advance 0 { request := r } :: List.replicate n (.advance 0 {})

/-- The payment is predicted under the first version of the analysis, and is about to be
decided under the second, which names this bank. -/
def decided (bank : String) : List TransactionAction :=
  [.arrive .connect, .arrive (.event authorization)] ++
    (List.range 50).map (fun i => .arrive (.event (failure i))) ++
    call (.registerAttempt ⟨"pay_1", razorpaySourceSystem, "pay_1", 0⟩) 0 ++
    call (.storeAnalytics diagnosed) 0 ++ call (.predict ref 10) 3 ++
    call (.storeAnalytics (revised bank)) 0 ++ call (.decide ref 20) 2

/-- The decision a call is about to be admitted with. -/
def admitting? : TransactionProc → Option (DecisionContext × Verdict)
  | .calling (.decideAdmit ctx verdict) => some (ctx, verdict)
  | _ => none

theorem eq_of_admitting? {p : TransactionProc} {ctx : DecisionContext} {verdict : Verdict}
    (h : admitting? p = some (ctx, verdict)) : p = .calling (.decideAdmit ctx verdict) := by
  unfold admitting? at h
  split at h
  · obtain ⟨rfl, rfl⟩ := Prod.mk.inj (Option.some.inj h)
    rfl
  · cases h

/-- The facts a decision is about to be admitted on. -/
structure Admitting (bank : String) (s : TransactionSession) (r : Reads) (ctx : DecisionContext)
    (verdict : Verdict) : Prop where
  proc : s.proc = .calling (.decideAdmit ctx verdict)
  act : (decideAdmitted getDefaultPolicy r ctx verdict).decisionType = .act
  route : (decideAdmitted getDefaultPolicy r ctx verdict).selectedRouteId =
    some .degradationCircuitBypass
  segmentSpecific : ctx.SegmentSpecific
  auth : ctx.auth = some authorization
  candidate : ctx.candidate = some (candidate 2 bank)
  recorded : (ctx.prediction.bind (·.featureSnapshot)).map (fun f =>
    (f.rcaCandidateDimension, f.rcaCandidateValue, f.valueOf "BANK")) =
      some (some "BANK", some "HDFC", some "HDFC")

/-- The run in which the second version of the analysis names this bank. -/
def runOf (bank : String) : Option TransactionWorld :=
  transactionRun deterministicBaselineModel getDefaultPolicy (decided bank)

/-- What the next step of the run's call reads. -/
def readsOf (w : TransactionWorld) (s : TransactionSession) : Reads :=
  ({} : TransactionInput).reads
    ((transactionProgram deterministicBaselineModel getDefaultPolicy).reads w.db s)

/-- The run has come to the admission. -/
def admits (bank : String) : Bool :=
  ((runOf bank).bind fun w => w.sessions[0]?.bind fun s =>
    (admitting? s.proc).map fun (ctx, verdict) =>
      let d := decideAdmitted getDefaultPolicy (readsOf w s) ctx verdict
      decide (d.decisionType = .act ∧ d.selectedRouteId = some .degradationCircuitBypass ∧
        ctx.degradation.rca.map (·.1.classification) = some .segmentSpecific ∧
        ctx.auth = some authorization ∧ ctx.candidate = some (candidate 2 bank) ∧
        (ctx.prediction.bind (·.featureSnapshot)).map (fun f =>
          (f.rcaCandidateDimension, f.rcaCandidateValue, f.valueOf "BANK")) =
            some (some "BANK", some "HDFC", some "HDFC"))) = some true

theorem admitting_of_admits (bank : String) (h : admits bank = true) :
    ∃ w s ctx verdict, runOf bank = some w ∧ w.sessions[0]? = some s ∧
      Admitting bank s (readsOf w s) ctx verdict := by
  obtain ⟨w, hw, h⟩ := Option.bind_eq_some_iff.mp (of_decide_eq_true h)
  obtain ⟨s, hs, h⟩ := Option.bind_eq_some_iff.mp h
  obtain ⟨⟨ctx, verdict⟩, hadmitting, h⟩ := Option.map_eq_some_iff.mp h
  obtain ⟨hact, hroute, hseg, hauth, hcandidate, hrecorded⟩ := of_decide_eq_true h
  exact ⟨w, s, ctx, verdict, hw, hs, eq_of_admitting? hadmitting, hact, hroute, hseg, hauth,
    hcandidate, hrecorded⟩

theorem requiresDiagnosis_bypass :
    RequiresDiagnosis getDefaultPolicy .degradationCircuitBypass := by
  unfold RequiresDiagnosis
  decide

end DiagnosisExample

open DiagnosisExample in
/-- Both versions of the analysis name HDFC, and the payment of HDFC is acted on. -/
theorem acts_in_segment_decided : ∃ w s ctx verdict, runOf "HDFC" = some w ∧
    w.sessions[0]? = some s ∧ Admitting "HDFC" s (readsOf w s) ctx verdict ∧
    ctx.InDiagnosedSegment := by
  obtain ⟨w, s, ctx, verdict, hw, hs, hadmitting⟩ :=
    admitting_of_admits "HDFC" (by decide +kernel)
  refine ⟨w, s, ctx, verdict, hw, hs, hadmitting, ?_⟩
  have hkept : ctx.SegmentKept := by
    obtain ⟨f, hf, hfacts⟩ := Option.map_eq_some_iff.mp hadmitting.recorded
    obtain ⟨hdimension, hvalue, hown⟩ := Prod.mk.inj hfacts |>.imp_right Prod.mk.inj
    exact ⟨f, _, _, hf, hadmitting.auth, hadmitting.candidate, hdimension, hvalue, hown⟩
  have hunmoved : Program.worldGuard (admitsUnmoved deterministicBaselineModel getDefaultPolicy)
      w (.advance 0 {} : TransactionAction) := by
    intro s' hs' p ctx' key hproc hadmits _ _ hmoved
    obtain rfl := Option.some.inj (hs.symm.trans hs')
    rw [hadmitting.proc] at hproc
    cases hproc
    cases hadmits
    exact hmoved.1 hkept
  exact (acts_in_segment _ _ _ w hw (.advance 0 {})).mpr hunmoved s hs _ ctx _ hadmitting.proc
    .admitted hadmitting.act _ hadmitting.route requiresDiagnosis_bypass hadmitting.segmentSpecific

open DiagnosisExample in
/-- The payment of HDFC is acted on, through a route that requires a diagnosis, while the
diagnosis read names ICICI. -/
theorem acts_outside_segment : ¬ ∀ model policy as w,
    transactionRun model policy as = some w →
      ∀ a : TransactionAction, Program.worldGuard (returnsInSegment model policy) w a := by
  intro hall
  obtain ⟨w, s, ctx, verdict, hw, hs, hadmitting⟩ :=
    admitting_of_admits "ICICI" (by decide +kernel)
  obtain ⟨e, c, he, hc, hvalue⟩ := hall _ _ _ w hw (.advance 0 {}) s hs _ ctx _ hadmitting.proc
    .admitted hadmitting.act _ hadmitting.route requiresDiagnosis_bypass hadmitting.segmentSpecific
  obtain rfl := Option.some.inj (hadmitting.auth.symm.trans he)
  obtain rfl := Option.some.inj (hadmitting.candidate.symm.trans hc)
  exact absurd hvalue (by decide)

end RevenueRecovery
