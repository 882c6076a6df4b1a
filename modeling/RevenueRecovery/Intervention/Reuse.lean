import RevenueRecovery.Intervention.Specification

/-!
# Stage 6: decisions that are returned again

A call returns a stored decision of its fingerprint without asking the gates again. The
inputs the fingerprint leaves out can have changed in between. The stored decision is still
the one the gates would give exactly when these inputs lead them to the same answers, as far
as they are reached (`decideFresh_agree_iff`).

## Main definitions
* `DecisionInputs` : what a decision from scratch is computed from.
* `Stranded`, `Proposes`, `Limited` : what the routes and the rate limit come to.
* `OmittedAgree` : the inputs left out lead to the same answers.
-/
namespace RevenueRecovery

/-! ## The inputs of a decision -/

/-- What a decision from scratch is computed from. -/
structure DecisionInputs where
  policy : InterventionPolicy
  ctx : DecisionContext
  onCooldown : InterventionRouteKey → Bool
  recentActDecisions : ℕ

/-- What a call reads under its two locks, with the context it has read before. -/
def decisionInputs (policy : InterventionPolicy) (locked admission : Reads)
    (ctx : DecisionContext) : DecisionInputs :=
  ⟨policy, ctx, cooldowns policy (locked.shift 1) ctx,
    countRecentActDecisions (admission.db 0) (ctx.tDecide - Time.seconds 60)⟩

namespace DecisionInputs
variable (s s' : DecisionInputs)

/-! The gates on these inputs. -/

def killSwitch : GateVerdict := evaluateKillSwitch s.policy

def amountAndCurrency : GateVerdict :=
  evaluateAmountAndCurrency s.ctx.amountMinorUnits s.ctx.currency

def preTerminal : GateVerdict := evaluatePreTerminalInvariance s.ctx.terminalExists

def stage5Prediction : GateVerdict := evaluateStage5PredictionValidity s.ctx.prediction

def episodeAndTrafficShift : GateVerdict :=
  evaluateEpisodeAndTrafficShift (s.ctx.degradation.episode.map (·.status))
    (s.ctx.degradation.rca.map (·.1.evidenceAuditPayload))

def costCurrency : GateVerdict := evaluatePolicyCostCurrency s.policy s.ctx.currency

/-- All hard gates pass. -/
def GatesPass : Prop := evaluateGates s.policy s.ctx = .passed

def HighRisk : Prop := s.policy.actRiskThreshold ≤ s.ctx.failureProbability

/-- The risk is high, and no route is open to the payment. -/
def Stranded : Prop :=
  s.HighRisk ∧ ∀ route ∈ s.policy.routes, s.costCurrency = .passed →
    ¬RouteEligible s.ctx s.onCooldown route

/-- The risk is high, and the best route, of this key, is useful enough. -/
def Proposes (key : InterventionRouteKey) : Prop :=
  s.HighRisk ∧ s.costCurrency = .passed ∧
    ∃ route, BestRoute s.policy s.ctx s.onCooldown route ∧ route.routeKey = key

/-- The global rate limit is reached. -/
def Limited : Prop := s.policy.globalRateLimitPerMinute ≤ s.recentActDecisions

/-- What the fingerprint leaves out leads to the same answers, as far as they are reached:
the kill switch, the terminal event and the shift flags at the gates; whether a route is open
and useful, and which; whether the rate limit is reached; and otherwise the threshold of the
policy for monitoring. -/
structure OmittedAgree : Prop where
  kill_switch : s.killSwitch = s'.killSwitch
  terminal : s.killSwitch = .passed → s.amountAndCurrency = .passed →
    s.preTerminal = s'.preTerminal
  shift : s.killSwitch = .passed → s.amountAndCurrency = .passed → s.preTerminal = .passed →
    s.stage5Prediction = .passed → s.episodeAndTrafficShift = s'.episodeAndTrafficShift
  stranded : s.GatesPass → (s.Stranded ↔ s'.Stranded)
  currency : s.GatesPass → s.Stranded → s.costCurrency = s'.costCurrency
  proposed : s.GatesPass → ((∃ key, s.Proposes key) ↔ ∃ key, s'.Proposes key)
  limit : s.GatesPass → ∀ key, s.Proposes key → (s.Limited ↔ s'.Limited)
  route : s.GatesPass → ∀ key, s.Proposes key → ¬s.Limited → s'.Proposes key
  monitor : s.GatesPass → ¬s.Stranded → (∀ key, ¬s.Proposes key) →
    (s.policy.monitorRiskThreshold ≤ s.ctx.failureProbability ↔
      s'.policy.monitorRiskThreshold ≤ s'.ctx.failureProbability)

end DecisionInputs

/-- The decisions agree in their type, their route and the verdict of the gates. -/
def SameRuling (d d' : InterventionDecision) : Prop :=
  d.decisionType = d'.decisionType ∧ d.selectedRouteId = d'.selectedRouteId ∧
    d.gateVerdict = d'.gateVerdict

/-! ## The hard gates -/

/-- Which of the checks gives the verdict. -/
def GateVerdict.place : GateVerdict → ℕ
  | .passed => 0
  | .failedKillSwitch => 1
  | .failedInvalidAmount => 2
  | .failedTerminalOutcomeIngested => 3
  | .failedStage5Unavailable | .failedStage5Ineligible => 4
  | .failedEpisodeInvalidated | .failedUnreliableDiagnosis => 5
  | _ => 6

/-- The first verdict that does not pass. -/
def firstFailure (gates : List GateVerdict) : GateVerdict :=
  (gates.find? (· ≠ .passed)).getD .passed

@[simp] theorem firstFailure_nil : firstFailure [] = .passed := rfl

theorem firstFailure_cons (g : GateVerdict) (gates : List GateVerdict) :
    firstFailure (g :: gates) = if g = .passed then firstFailure gates else g := by
  by_cases hg : g = .passed <;> simp [firstFailure, hg]

/-- Each gate passes or gives a verdict of its own place. -/
def InPlace (n : ℕ) : List GateVerdict → Prop
  | [] => True
  | g :: gates => (g = .passed ∨ g.place = n) ∧ InPlace (n + 1) gates

/-- The gates give the same verdicts as long as they pass. -/
def ReachedAlike : List GateVerdict → List GateVerdict → Prop
  | g :: gates, g' :: gates' => g = g' ∧ (g = .passed → ReachedAlike gates gates')
  | _, _ => True

/-- A failure is in the place of one of the gates. -/
theorem InPlace.place_firstFailure {n : ℕ} {gates : List GateVerdict} (h : InPlace n gates) :
    firstFailure gates = .passed ∨
      n ≤ (firstFailure gates).place ∧ (firstFailure gates).place < n + gates.length := by
  induction gates generalizing n with
  | nil => exact .inl rfl
  | cons g gates ih =>
      obtain ⟨hg, hgates⟩ := h
      rw [firstFailure_cons, List.length_cons]
      split
      · refine (ih hgates).imp_right fun hplace => ?_
        omega
      · refine hg.imp_right fun hplace => ?_
        omega

theorem InPlace.firstFailure_ne {n : ℕ} {g : GateVerdict} {gates : List GateVerdict}
    (h : InPlace (n + 1) gates) (hg : g = .passed ∨ g.place = n) (hne : g ≠ .passed) :
    firstFailure gates ≠ g := by
  rintro rfl
  rcases h.place_firstFailure with hpass | ⟨hplace, -⟩
  · exact hne hpass
  · exact absurd (hg.resolve_left hne) (Nat.ne_of_gt hplace)

/-- Sequences of gates in the same places fail alike when they agree as far as they are
reached. -/
theorem InPlace.firstFailure_eq_iff {n : ℕ} {gates gates' : List GateVerdict}
    (h : InPlace n gates) (h' : InPlace n gates') (hlength : gates.length = gates'.length) :
    firstFailure gates = firstFailure gates' ↔ ReachedAlike gates gates' := by
  induction gates generalizing n gates' with
  | nil =>
      obtain rfl := List.length_eq_zero_iff.mp hlength.symm
      exact iff_of_true rfl trivial
  | cons g gates ih =>
      cases gates' with
      | nil => cases hlength
      | cons g' gates' =>
          rw [firstFailure_cons, firstFailure_cons, ReachedAlike]
          by_cases hpass : g = .passed <;> by_cases hpass' : g' = .passed
          · simp [hpass, hpass', ih h.2 h'.2 (Nat.succ.inj hlength)]
          · rw [if_pos hpass, if_neg hpass']
            exact iff_of_false (h.2.firstFailure_ne h'.1 hpass') fun heq => hpass' (heq.1 ▸ hpass)
          · rw [if_neg hpass, if_pos hpass']
            exact iff_of_false (h'.2.firstFailure_ne h.1 hpass).symm
              fun heq => hpass (heq.1 ▸ hpass')
          · simp [hpass, hpass']

/-- The episode gate reads the status and the two flags only. -/
theorem evaluateEpisodeAndTrafficShift_eq (status : Option EpisodeStatus)
    (payload : Option EvidenceAuditPayload) :
    evaluateEpisodeAndTrafficShift status payload =
      if status = some .invalidated then .failedEpisodeInvalidated
      else if payload.any fun p => p.trafficMixShift || p.unreliableDiagnosis then
        .failedUnreliableDiagnosis
      else .passed := by
  cases payload <;> simp [evaluateEpisodeAndTrafficShift]

/-- The prediction gate reads the status and whether there is a probability. -/
theorem evaluateStage5PredictionValidity_eq (p : Option FailurePrediction) :
    evaluateStage5PredictionValidity p =
      match p.map (·.predictionStatus) with
      | none => .failedStage5Unavailable
      | some status =>
          if status ≠ .predicted ∨ (p.bind (·.failureProbability)).isNone then
            .failedStage5Ineligible
          else .passed := by
  cases p with
  | none => rfl
  | some p =>
      by_cases hs : p.predictionStatus = .predicted <;>
        by_cases hp : p.failureProbability.isNone <;>
        simp [evaluateStage5PredictionValidity, hs, hp]

namespace DecisionInputs
variable {s s' : DecisionInputs}

/-- The hard gates, in their order. -/
def hardGates (s : DecisionInputs) : List GateVerdict :=
  [s.killSwitch, s.amountAndCurrency, s.preTerminal, s.stage5Prediction, s.episodeAndTrafficShift]

theorem evaluateGates_eq_firstFailure (s : DecisionInputs) :
    evaluateGates s.policy s.ctx = firstFailure s.hardGates :=
  rfl

theorem place_killSwitch (s : DecisionInputs) :
    s.killSwitch = .passed ∨ s.killSwitch.place = 1 := by
  unfold killSwitch evaluateKillSwitch
  split <;> simp [GateVerdict.place]

theorem place_amountAndCurrency (s : DecisionInputs) :
    s.amountAndCurrency = .passed ∨ s.amountAndCurrency.place = 2 := by
  unfold amountAndCurrency evaluateAmountAndCurrency
  split_ifs <;> simp [GateVerdict.place]

theorem place_preTerminal (s : DecisionInputs) :
    s.preTerminal = .passed ∨ s.preTerminal.place = 3 := by
  unfold preTerminal evaluatePreTerminalInvariance
  split <;> simp [GateVerdict.place]

theorem place_stage5Prediction (s : DecisionInputs) :
    s.stage5Prediction = .passed ∨ s.stage5Prediction.place = 4 := by
  unfold stage5Prediction
  rw [evaluateStage5PredictionValidity_eq]
  split
  · simp [GateVerdict.place]
  · split <;> simp [GateVerdict.place]

theorem place_episodeAndTrafficShift (s : DecisionInputs) :
    s.episodeAndTrafficShift = .passed ∨ s.episodeAndTrafficShift.place = 5 := by
  unfold episodeAndTrafficShift
  rw [evaluateEpisodeAndTrafficShift_eq]
  split_ifs <;> simp [GateVerdict.place]

theorem inPlace_hardGates (s : DecisionInputs) : InPlace 1 s.hardGates :=
  ⟨s.place_killSwitch, s.place_amountAndCurrency, s.place_preTerminal, s.place_stage5Prediction,
    s.place_episodeAndTrafficShift, trivial⟩

/-- The hard gates fail alike when the gates on omitted inputs agree where they are reached. -/
theorem evaluateGates_eq_iff (hamount : s.amountAndCurrency = s'.amountAndCurrency)
    (hprediction : s.stage5Prediction = s'.stage5Prediction) :
    evaluateGates s.policy s.ctx = evaluateGates s'.policy s'.ctx ↔
      s.killSwitch = s'.killSwitch ∧
      (s.killSwitch = .passed → s.amountAndCurrency = .passed →
        s.preTerminal = s'.preTerminal) ∧
      (s.killSwitch = .passed → s.amountAndCurrency = .passed → s.preTerminal = .passed →
        s.stage5Prediction = .passed →
          s.episodeAndTrafficShift = s'.episodeAndTrafficShift) := by
  rw [evaluateGates_eq_firstFailure, evaluateGates_eq_firstFailure,
    s.inPlace_hardGates.firstFailure_eq_iff s'.inPlace_hardGates rfl]
  simp only [hardGates, ReachedAlike, hamount, hprediction, true_and, implies_true, and_true]
  constructor
  · rintro ⟨hkill, hrest⟩
    exact ⟨hkill, fun hk ha => (hrest hk ha).1, fun hk ha ht hp => (hrest hk ha).2 ht hp⟩
  · rintro ⟨hkill, hterminal, hshift⟩
    exact ⟨hkill, fun hk ha => ⟨hterminal hk ha, fun ht hp => hshift hk ha ht hp⟩⟩

/-! ## The routes and the verdict -/

theorem costCurrency_cases (s : DecisionInputs) :
    s.costCurrency = .passed ∨ s.costCurrency = .failedUnsupportedCostCurrency := by
  unfold costCurrency evaluatePolicyCostCurrency
  split <;> simp

theorem costCurrency_passed : s.costCurrency = .passed ↔ s.ctx.currency = s.policy.costCurrency :=
  evaluatePolicyCostCurrency_passed

/-- No candidate is left when no route is open. -/
theorem stranded_iff : s.Stranded ↔
    rankedCandidates s.policy s.ctx s.onCooldown = [] ∧
      s.ctx.failureProbability ≥ s.policy.actRiskThreshold := by
  have hranked : rankedCandidates s.policy s.ctx s.onCooldown = [] ↔
      eligibleScores s.policy s.ctx s.onCooldown = [] := by
    rw [← List.length_eq_zero_iff, ← List.length_eq_zero_iff]
    simp [rankedCandidates, scoreAndRankCandidates, eligibleScores]
  rw [hranked, List.eq_nil_iff_forall_not_mem, and_comm, Stranded, HighRisk]
  refine and_congr_right fun _ => ?_
  simp only [mem_eligibleScores, costCurrency_passed]
  constructor
  · rintro hclosed c ⟨hcurrency, route, hroute, heligible, -⟩
    exact hclosed route hroute hcurrency heligible
  · intro hnone route hroute hcurrency heligible
    exact hnone _ ⟨hcurrency, route, hroute, heligible, rfl⟩

theorem Stranded.not_proposes (h : s.Stranded) (key : InterventionRouteKey) :
    ¬s.Proposes key := by
  rintro ⟨-, hcurrency, route, hbest, -⟩
  exact h.2 route hbest.1 hcurrency hbest.2.1

/-- A verdict acts through the route proposed. -/
theorem proposes_iff (hgates : s.GatesPass) {key : InterventionRouteKey} :
    ((tentativeVerdict s.policy s.ctx s.onCooldown).decisionType = .act ∧
      (tentativeVerdict s.policy s.ctx s.onCooldown).selectedRoute = some key) ↔
        s.Proposes key := by
  rw [tentativeVerdict_act, rankedCandidates_best, Proposes, costCurrency_passed]
  exact and_iff_right hgates

/-- At most one route is proposed. -/
theorem Proposes.unique (hgates : s.GatesPass) {key key' : InterventionRouteKey}
    (h : s.Proposes key) (h' : s.Proposes key') : key = key' :=
  Option.some.inj (((proposes_iff hgates).mpr h).2.symm.trans ((proposes_iff hgates).mpr h').2)

end DecisionInputs

/-- The type, the route and the gate verdict. -/
def InterventionDecision.ruling (d : InterventionDecision) :
    DecisionType × Option InterventionRouteKey × GateVerdict :=
  (d.decisionType, d.selectedRouteId, d.gateVerdict)

theorem sameRuling_iff {d d' : InterventionDecision} :
    SameRuling d d' ↔ d.ruling = d'.ruling := by
  simp [SameRuling, InterventionDecision.ruling]

section Ruling
variable {policy : InterventionPolicy} {upstream locked admission : Reads} {ref : AttemptRef}
  {tDecide : Time} {ctx : DecisionContext} {d : InterventionDecision}
  (hctx : decisionContext upstream ref tDecide = .ok ctx)
  (hd : decideFresh policy upstream locked admission ref tDecide = .ok d)
include hctx hd

/-- A verdict that does not act is recorded as it is. -/
theorem ruling_of_ne_act {verdict : Verdict}
    (hverdict : tentativeVerdict policy ctx (cooldowns policy (locked.shift 1) ctx) = verdict)
    (hact : verdict.decisionType ≠ .act) :
    d.ruling = (verdict.decisionType, verdict.selectedRoute, verdict.gateVerdict) := by
  obtain ⟨htype, hroute, hgate⟩ := decideFresh_spec hctx hd
  simp only [hverdict, hact, false_and, if_false] at htype hroute hgate
  rw [InterventionDecision.ruling, htype, hroute, hgate]

theorem ruling_of_gate (h : ¬(decisionInputs policy locked admission ctx).GatesPass) :
    d.ruling = (.noAction, none, evaluateGates policy ctx) :=
  ruling_of_ne_act hctx hd (if_pos h) (by simp [Verdict.blocked])

variable (hgates : (decisionInputs policy locked admission ctx).GatesPass)
include hgates

theorem ruling_of_stranded (h : (decisionInputs policy locked admission ctx).Stranded) :
    d.ruling = (.noAction, none,
      if (decisionInputs policy locked admission ctx).costCurrency = .passed then
        .failedNoEligibleRoutes
      else (decisionInputs policy locked admission ctx).costCurrency) := by
  refine ruling_of_ne_act hctx hd ((if_neg (not_not.mpr hgates)).trans
    (if_pos (DecisionInputs.stranded_iff.mp h))) ?_
  simp [Verdict.blocked]

theorem ruling_of_limited {key : InterventionRouteKey}
    (h : (decisionInputs policy locked admission ctx).Proposes key)
    (hlimit : (decisionInputs policy locked admission ctx).Limited) :
    d.ruling = (.noAction, none, .failedGlobalRateLimit) := by
  obtain ⟨hact, -⟩ := (DecisionInputs.proposes_iff hgates).mpr h
  obtain ⟨htype, hroute, hgate⟩ := decideFresh_spec hctx hd
  rw [if_pos ⟨hact, hlimit⟩] at htype hroute hgate
  rw [InterventionDecision.ruling, htype, hroute, hgate]
  rfl

theorem ruling_of_proposes {key : InterventionRouteKey}
    (h : (decisionInputs policy locked admission ctx).Proposes key)
    (hlimit : ¬(decisionInputs policy locked admission ctx).Limited) :
    d.ruling = (.act, some key, .passed) := by
  obtain ⟨hact, hkey⟩ := (DecisionInputs.proposes_iff hgates).mpr h
  obtain ⟨htype, hroute, hgate⟩ := decideFresh_spec hctx hd
  rw [if_neg fun hboth => hlimit hboth.2] at htype hroute hgate
  have hpassed := tentativeVerdict_coherent.passed hact
  rw [InterventionDecision.ruling, htype, hroute, hgate]
  exact Prod.ext hact (Prod.ext hkey hpassed)

/-- Without a proposal the verdict is on the risk alone. -/
theorem ruling_of_quiet (hstranded : ¬(decisionInputs policy locked admission ctx).Stranded)
    (h : ∀ key, ¬(decisionInputs policy locked admission ctx).Proposes key) :
    d.ruling = (if policy.monitorRiskThreshold ≤ ctx.failureProbability then .monitor
      else .noAction, none, .passed) := by
  have hrisk : tentativeVerdict policy ctx (cooldowns policy (locked.shift 1) ctx) =
      riskVerdict ctx.failureProbability policy := by
    have heq : tentativeVerdict policy ctx (cooldowns policy (locked.shift 1) ctx) =
        determineVerdict (rankedCandidates policy ctx
          (cooldowns policy (locked.shift 1) ctx)).head? ctx.failureProbability policy
            ctx.evidenceStrength :=
      (if_neg (not_not.mpr hgates)).trans (if_neg (mt DecisionInputs.stranded_iff.mpr hstranded))
    have hnot : ∀ key, ¬((tentativeVerdict policy ctx
        (cooldowns policy (locked.shift 1) ctx)).decisionType = .act ∧ (tentativeVerdict policy ctx
          (cooldowns policy (locked.shift 1) ctx)).selectedRoute = some key) :=
      fun key hact => h key ((DecisionInputs.proposes_iff hgates).mp hact)
    rw [heq] at hnot ⊢
    cases hbest : (rankedCandidates policy ctx (cooldowns policy (locked.shift 1) ctx)).head? with
    | none => rfl
    | some c =>
        simp only [hbest, determineVerdict] at hnot ⊢
        split
        · rename_i huseful
          rw [if_pos huseful] at hnot
          exact absurd ⟨rfl, rfl⟩ (hnot c.routeKey)
        · rfl
  rw [ruling_of_ne_act hctx hd hrisk (riskVerdict_ne_act _ _).1, riskVerdict]
  split <;> rfl

end Ruling

/-- The ruling on inputs: a gate that fails, no open route, the rate limit, the route
proposed, or the risk alone. -/
structure RuledOn (s : DecisionInputs)
    (ruling : DecisionType × Option InterventionRouteKey × GateVerdict) : Prop where
  gate : ¬s.GatesPass → ruling = (.noAction, none, evaluateGates s.policy s.ctx)
  stranded : s.GatesPass → s.Stranded → ruling = (.noAction, none,
    if s.costCurrency = .passed then .failedNoEligibleRoutes else s.costCurrency)
  limited : s.GatesPass → ∀ key, s.Proposes key → s.Limited →
    ruling = (.noAction, none, .failedGlobalRateLimit)
  proposes : s.GatesPass → ∀ key, s.Proposes key → ¬s.Limited →
    ruling = (.act, some key, .passed)
  quiet : s.GatesPass → ¬s.Stranded → (∀ key, ¬s.Proposes key) →
    ruling = (if s.policy.monitorRiskThreshold ≤ s.ctx.failureProbability then .monitor
      else .noAction, none, .passed)

theorem decideFresh_ruledOn {policy : InterventionPolicy} {upstream locked admission : Reads}
    {ref : AttemptRef} {tDecide : Time} {ctx : DecisionContext} {d : InterventionDecision}
    (hctx : decisionContext upstream ref tDecide = .ok ctx)
    (hd : decideFresh policy upstream locked admission ref tDecide = .ok d) :
    RuledOn (decisionInputs policy locked admission ctx) d.ruling where
  gate := ruling_of_gate hctx hd
  stranded := ruling_of_stranded hctx hd
  limited hgates _ := ruling_of_limited hctx hd hgates
  proposes hgates _ := ruling_of_proposes hctx hd hgates
  quiet := ruling_of_quiet hctx hd

/-! ## Two rulings -/

section TwoRulings
variable {s s' : DecisionInputs}
  {x x' : DecisionType × Option InterventionRouteKey × GateVerdict}

/-- A failing gate gives a verdict of its own. -/
theorem DecisionInputs.place_evaluateGates (h : ¬s.GatesPass) :
    1 ≤ (evaluateGates s.policy s.ctx).place ∧ (evaluateGates s.policy s.ctx).place < 6 :=
  s.inPlace_hardGates.place_firstFailure.resolve_left h

theorem RuledOn.of_stranded (h : RuledOn s x) (hgates : s.GatesPass) (hstranded : s.Stranded) :
    x.2.2 = .failedNoEligibleRoutes ∨ x.2.2 = .failedUnsupportedCostCurrency := by
  rw [h.stranded hgates hstranded]
  rcases s.costCurrency_cases with hcurrency | hcurrency <;> simp [hcurrency]

theorem RuledOn.of_not_stranded (h : RuledOn s x) (hgates : s.GatesPass)
    (hstranded : ¬s.Stranded) : x.2.2 = .passed ∨ x.2.2 = .failedGlobalRateLimit := by
  by_cases hproposed : ∃ key, s.Proposes key
  · obtain ⟨key, hkey⟩ := hproposed
    by_cases hlimit : s.Limited
    · exact .inr (by rw [h.limited hgates key hkey hlimit])
    · exact .inl (by rw [h.proposes hgates key hkey hlimit])
  · exact .inl (by rw [h.quiet hgates hstranded (not_exists.mp hproposed)])

/-- When the gates pass, the verdict is none of theirs. -/
theorem RuledOn.ne_of_gate (h : RuledOn s x) (h' : RuledOn s' x') (hgates : s.GatesPass)
    (hgates' : ¬s'.GatesPass) : x ≠ x' := by
  rintro rfl
  obtain ⟨hlow, hhigh⟩ := DecisionInputs.place_evaluateGates hgates'
  have hverdict : x.2.2 = evaluateGates s'.policy s'.ctx := by rw [h'.gate hgates']
  rw [← hverdict] at hlow hhigh
  by_cases hstranded : s.Stranded
  · rcases h.of_stranded hgates hstranded with heq | heq <;>
      simp [heq, GateVerdict.place] at hhigh
  · rcases h.of_not_stranded hgates hstranded with heq | heq <;>
      simp [heq, GateVerdict.place] at hlow hhigh

/-- A payment without an open route is not ruled on like one with a route. -/
theorem RuledOn.ne_of_stranded (h : RuledOn s x) (h' : RuledOn s' x') (hgates : s.GatesPass)
    (hgates' : s'.GatesPass) (hstranded : s.Stranded) (hstranded' : ¬s'.Stranded) : x ≠ x' := by
  rintro rfl
  rcases h.of_stranded hgates hstranded with heq | heq <;>
    rcases h'.of_not_stranded hgates' hstranded' with heq' | heq' <;> simp [heq] at heq'

/-- A route that is proposed leads to an action or to the rate limit. -/
theorem RuledOn.ne_of_proposes (h : RuledOn s x) (h' : RuledOn s' x') (hgates : s.GatesPass)
    (hgates' : s'.GatesPass) {key : InterventionRouteKey} (hkey : s.Proposes key)
    (hstranded' : ¬s'.Stranded) (hnone : ∀ key, ¬s'.Proposes key) : x ≠ x' := by
  rw [h'.quiet hgates' hstranded' hnone]
  by_cases hlimit : s.Limited
  · rw [h.limited hgates key hkey hlimit]
    simp
  · rw [h.proposes hgates key hkey hlimit]
    simp

/-- Where both propose a route, the rate limit decides, and below it the routes do. -/
theorem RuledOn.eq_iff_of_proposes (h : RuledOn s x) (h' : RuledOn s' x') (hgates : s.GatesPass)
    (hgates' : s'.GatesPass) {key key' : InterventionRouteKey} (hkey : s.Proposes key)
    (hkey' : s'.Proposes key') :
    x = x' ↔ (s.Limited ↔ s'.Limited) ∧ (¬s.Limited → key = key') := by
  by_cases hlimit : s.Limited <;> by_cases hlimit' : s'.Limited
  · rw [h.limited hgates key hkey hlimit, h'.limited hgates' key' hkey' hlimit']
    simp [hlimit, hlimit']
  · rw [h.limited hgates key hkey hlimit, h'.proposes hgates' key' hkey' hlimit']
    simp [hlimit, hlimit']
  · rw [h.proposes hgates key hkey hlimit, h'.limited hgates' key' hkey' hlimit']
    simp [hlimit, hlimit']
  · rw [h.proposes hgates key hkey hlimit, h'.proposes hgates' key' hkey' hlimit']
    simp [hlimit, hlimit']

/-- Where the gates pass, rulings agree when the routes, the rate limit and the risk do. -/
theorem RuledOn.eq_iff_of_pass (h : RuledOn s x) (h' : RuledOn s' x') (hgates : s.GatesPass)
    (hgates' : s'.GatesPass) : x = x' ↔
      (s.Stranded ↔ s'.Stranded) ∧ (s.Stranded → s.costCurrency = s'.costCurrency) ∧
      ((∃ key, s.Proposes key) ↔ ∃ key, s'.Proposes key) ∧
      (∀ key, s.Proposes key → (s.Limited ↔ s'.Limited)) ∧
      (∀ key, s.Proposes key → ¬s.Limited → s'.Proposes key) ∧
      (¬s.Stranded → (∀ key, ¬s.Proposes key) →
        (s.policy.monitorRiskThreshold ≤ s.ctx.failureProbability ↔
          s'.policy.monitorRiskThreshold ≤ s'.ctx.failureProbability)) := by
  by_cases hstranded : s.Stranded <;> by_cases hstranded' : s'.Stranded
  · -- no route is proposed, and the verdict tells the currency from the routes
    rw [h.stranded hgates hstranded, h'.stranded hgates' hstranded']
    simp only [hstranded, hstranded', hstranded.not_proposes, hstranded'.not_proposes,
      exists_false, IsEmpty.forall_iff, implies_true, not_true_eq_false, true_and, and_true,
      Prod.mk.injEq, true_implies]
    rcases s.costCurrency_cases with hcurrency | hcurrency <;>
      rcases s'.costCurrency_cases with hcurrency' | hcurrency' <;> simp [hcurrency, hcurrency']
  · exact iff_of_false (h.ne_of_stranded h' hgates hgates' hstranded hstranded')
      fun hagree => hstranded' (hagree.1.mp hstranded)
  · exact iff_of_false (h'.ne_of_stranded h hgates' hgates hstranded' hstranded).symm
      fun hagree => hstranded (hagree.1.mpr hstranded')
  · by_cases hproposed : ∃ key, s.Proposes key <;> by_cases hproposed' : ∃ key, s'.Proposes key
    · obtain ⟨key, hkey⟩ := hproposed
      obtain ⟨key', hkey'⟩ := hproposed'
      rw [h.eq_iff_of_proposes h' hgates hgates' hkey hkey']
      constructor
      · rintro ⟨hlimit, hroute⟩
        refine ⟨iff_of_false hstranded hstranded', fun hs => absurd hs hstranded,
          iff_of_true ⟨key, hkey⟩ ⟨key', hkey'⟩, fun _ _ => hlimit, fun k hk hbelow => ?_,
          fun _ hnone => absurd hkey (hnone key)⟩
        rw [hk.unique hgates hkey, hroute hbelow]
        exact hkey'
      · rintro ⟨-, -, -, hlimit, hroute, -⟩
        exact ⟨hlimit key hkey, fun hbelow => (hroute key hkey hbelow).unique hgates' hkey'⟩
    · obtain ⟨key, hkey⟩ := hproposed
      exact iff_of_false (h.ne_of_proposes h' hgates hgates' hkey hstranded'
        (not_exists.mp hproposed')) fun hagree => hproposed' (hagree.2.2.1.mp ⟨key, hkey⟩)
    · obtain ⟨key', hkey'⟩ := hproposed'
      exact iff_of_false (h'.ne_of_proposes h hgates' hgates hkey' hstranded
        (not_exists.mp hproposed)).symm fun hagree => hproposed (hagree.2.2.1.mpr ⟨key', hkey'⟩)
    · have hnone := not_exists.mp hproposed
      have hnone' := not_exists.mp hproposed'
      rw [h.quiet hgates hstranded hnone, h'.quiet hgates' hstranded' hnone']
      simp only [hstranded, hstranded', hnone, hnone', exists_false, IsEmpty.forall_iff,
        implies_true, not_false_eq_true, true_and, and_true, Prod.mk.injEq, true_implies]
      by_cases hmonitor : s.policy.monitorRiskThreshold ≤ s.ctx.failureProbability <;>
        by_cases hmonitor' : s'.policy.monitorRiskThreshold ≤ s'.ctx.failureProbability <;>
        simp [hmonitor, hmonitor']

/-- Rulings on inputs of equal amounts and predictions agree exactly when the other inputs
lead to the same answers. -/
theorem RuledOn.eq_iff (h : RuledOn s x) (h' : RuledOn s' x')
    (hamount : s.amountAndCurrency = s'.amountAndCurrency)
    (hprediction : s.stage5Prediction = s'.stage5Prediction) :
    x = x' ↔ s.OmittedAgree s' := by
  have hgateIff := DecisionInputs.evaluateGates_eq_iff hamount hprediction
  by_cases hgates : s.GatesPass <;> by_cases hgates' : s'.GatesPass
  · rw [h.eq_iff_of_pass h' hgates hgates']
    obtain ⟨hkill, hterminal, hshift⟩ := hgateIff.mp (hgates.trans hgates'.symm)
    constructor
    · rintro ⟨hstranded, hcurrency, hproposed, hlimit, hroute, hmonitor⟩
      exact ⟨hkill, hterminal, hshift, fun _ => hstranded, fun _ => hcurrency, fun _ => hproposed,
        fun _ => hlimit, fun _ => hroute, fun _ => hmonitor⟩
    · intro hagree
      exact ⟨hagree.stranded hgates, hagree.currency hgates, hagree.proposed hgates,
        hagree.limit hgates, hagree.route hgates, hagree.monitor hgates⟩
  · refine iff_of_false ?_ fun hagree => hgates' ?_
    · exact h.ne_of_gate h' hgates hgates'
    · exact (hgateIff.mpr ⟨hagree.kill_switch, hagree.terminal, hagree.shift⟩).symm.trans hgates
  · refine iff_of_false ?_ fun hagree => hgates ?_
    · exact (h'.ne_of_gate h hgates' hgates).symm
    · exact (hgateIff.mpr ⟨hagree.kill_switch, hagree.terminal, hagree.shift⟩).trans hgates'
  · rw [h.gate hgates, h'.gate hgates', Prod.mk.injEq, Prod.mk.injEq, hgateIff]
    simp only [true_and]
    constructor
    · rintro ⟨hkill, hterminal, hshift⟩
      refine ⟨hkill, hterminal, hshift, ?_, ?_, ?_, ?_, ?_, ?_⟩ <;>
        exact fun hpass => absurd hpass hgates
    · intro hagree
      exact ⟨hagree.kill_switch, hagree.terminal, hagree.shift⟩

end TwoRulings

/-! ## Decisions that are returned again -/

/-- A decision made from scratch, and one a later call would make from scratch when the
fingerprints are equal or when the call returns the first, agree exactly when what the
fingerprint leaves out leads to the same answers. -/
theorem decideFresh_agree_iff {policy policy' : InterventionPolicy}
    {upstream locked admission upstream' locked' admission' : Reads} {ref : AttemptRef}
    {tDecide : Time} {ctx ctx' : DecisionContext} {d d' : InterventionDecision}
    (hctx : decisionContext upstream ref tDecide = .ok ctx)
    (hctx' : decisionContext upstream' ref tDecide = .ok ctx')
    (hd : decideFresh policy upstream locked admission ref tDecide = .ok d)
    (hd' : decideFresh policy' upstream' locked' admission' ref tDecide = .ok d')
    (hsame : d.inputFingerprint = d'.inputFingerprint ∨
      decideCall policy' upstream' locked' admission' ref tDecide = .ok d) :
    SameRuling d d' ↔ (decisionInputs policy locked admission ctx).OmittedAgree
      (decisionInputs policy' locked' admission' ctx') := by
  have hfingerprint : ctx.fingerprint policy = ctx'.fingerprint policy' := by
    rw [← decideFresh_fingerprint hctx hd]
    rcases hsame with hsame | hreturned
    · rw [hsame, decideFresh_fingerprint hctx' hd']
    · exact decideCall_fingerprint hctx' hreturned
  obtain ⟨-, -, hamount, hcurrency, -, hprobability, hstatus, -⟩ :=
    fingerprint_eq_iff.mp hfingerprint
  rw [sameRuling_iff]
  refine (decideFresh_ruledOn hctx hd).eq_iff (decideFresh_ruledOn hctx' hd') ?_ ?_
  · simp only [DecisionInputs.amountAndCurrency, decisionInputs, hamount, hcurrency]
  · simp only [DecisionInputs.stage5Prediction, decisionInputs,
      evaluateStage5PredictionValidity_eq, hstatus, hprobability]

namespace ReuseExample

open FingerprintExample

/-- An authorized payment whose risk is moderate. -/
def watched : Database :=
  { before with predictions := [{ prediction with failureProbability := some (1 / 2) }] }

/-- Its decision is stored, and another payment was acted on. -/
def busy : Database :=
  { watched with decisions := (fresh watched).toOption.toList ++
      (fresh before).toOption.toList.map fun d =>
        { d with decisionId := ⟨"pay_2", 1⟩, paymentAttemptId := "pay_2" } }

end ReuseExample

open FingerprintExample ReuseExample in
/-- The payment is to be monitored, also when the decision is returned again. -/
theorem decideFresh_agree_iff_busy : ∃ d d' ctx ctx', fresh watched = .ok d ∧
    fresh busy = .ok d' ∧ call busy = .ok d ∧ d.decisionType = .monitor ∧ SameRuling d d' ∧
    countRecentActDecisions busy 0 = 1 ∧
    (decisionInputs getDefaultPolicy (.all watched) (.all watched) ctx).OmittedAgree
      (decisionInputs getDefaultPolicy (.all busy) (.all busy) ctx') := by
  have hfacts : ((fresh watched).toOption.bind fun d => (fresh busy).toOption.map fun d' =>
      decide (call busy = .ok d ∧ d.decisionType = .monitor ∧ d.decisionType = d'.decisionType ∧
        d.selectedRouteId = d'.selectedRouteId ∧ d.gateVerdict = d'.gateVerdict)) =
      some true := by
    decide +kernel
  obtain ⟨d, hd, hfacts⟩ := Option.bind_eq_some_iff.mp hfacts
  obtain ⟨d', hd', hfacts⟩ := Option.map_eq_some_iff.mp hfacts
  obtain ⟨hcall, htype, hsame⟩ := of_decide_eq_true hfacts
  obtain ⟨ctx, hctx⟩ := decideFresh_context (fresh_eq_ok hd)
  obtain ⟨ctx', hctx'⟩ := decideFresh_context (fresh_eq_ok hd')
  refine ⟨d, d', ctx, ctx', fresh_eq_ok hd, fresh_eq_ok hd', hcall, htype, hsame,
    by decide +kernel, ?_⟩
  exact (decideFresh_agree_iff hctx hctx' (fresh_eq_ok hd) (fresh_eq_ok hd') (.inr hcall)).mp hsame

end RevenueRecovery
