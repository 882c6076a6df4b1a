import Mathlib.Data.Prod.Lex
import Mathlib.Data.String.Basic
import RevenueRecovery.Execution.Service
import RevenueRecovery.Intervention.Fingerprint

/-!
# Stage 6: when a decision acts

The conditions under which a new decision acts through a route, stated without the order
in which the gates, the routes and the rate limit are looked at.

## Main definitions
* `RouteEligible`, `routeOrder` : the routes a payment may take, and their order.
* `ActsThrough` : the conditions to act through a route.
* `Verdict.Coherent` : a verdict has a route exactly when it acts.
-/
namespace RevenueRecovery

section Conditions
variable (policy : InterventionPolicy) (ctx : DecisionContext)
  (onCooldown : InterventionRouteKey → Bool)

/-- What is left of the expected recovery after the cost of the route. -/
def routeUtility (route : RoutePolicyDefinition) : ℤ :=
  (calculatePolicyUtility ctx.amountMinorUnits ctx.failureProbability route.policyRecoveryRate
    route.policyCostMinorUnits).2

/-- The route applies to the payment. -/
def RouteEligible (route : RoutePolicyDefinition) : Prop :=
  evaluateRouteEligibility route ctx.routeFacts (onCooldown route.routeKey) = .eligible

/-- Utility descending, cost ascending, key value ascending. -/
def routeOrder (route : RoutePolicyDefinition) : ℤᵒᵈ ×ₗ ℤ ×ₗ String :=
  toLex (OrderDual.toDual (routeUtility ctx route),
    toLex (route.policyCostMinorUnits, route.routeKey.value))

/-- The route is eligible, first among the eligible ones, and useful enough. -/
def BestRoute (route : RoutePolicyDefinition) : Prop :=
  route ∈ policy.routes ∧ RouteEligible ctx onCooldown route ∧
    (∀ other ∈ policy.routes, RouteEligible ctx onCooldown other →
      routeOrder ctx route ≤ routeOrder ctx other) ∧
    policy.minPolicyUtilityThreshold ≤ routeUtility ctx route

/-- The conditions to act through the route of a key. -/
structure ActsThrough (recentActDecisions : ℕ) (key : InterventionRouteKey) : Prop where
  kill_switch_off : policy.killSwitchEnabled = false
  amount_pos : 0 < ctx.amountMinorUnits
  currency_length : ctx.currency.toList.length = 3
  no_terminal : ctx.terminalExists = false
  predicted : ∃ p probability, ctx.prediction = some p ∧ p.predictionStatus = .predicted ∧
    p.failureProbability = some probability ∧ policy.actRiskThreshold ≤ probability
  episode_passes : evaluateEpisodeAndTrafficShift (ctx.degradation.episode.map (·.status))
    (ctx.degradation.rca.map (·.1.evidenceAuditPayload)) = .passed
  cost_currency : ctx.currency = policy.costCurrency
  best : ∃ route, BestRoute policy ctx onCooldown route ∧ route.routeKey = key
  below_limit : recentActDecisions < policy.globalRateLimitPerMinute

end Conditions

section Verdict
variable {policy : InterventionPolicy} {ctx : DecisionContext}
  {onCooldown : InterventionRouteKey → Bool} {key : InterventionRouteKey}

/-! ## The gates -/

theorem InterventionRouteKey.value_injective :
    Function.Injective InterventionRouteKey.value := by
  intro a b h
  cases a <;> cases b <;> first | rfl | simp [value] at h

/-- The hard gates pass together when each of them does. -/
theorem evaluateGates_passed :
    evaluateGates policy ctx = .passed ↔
      evaluateKillSwitch policy = .passed ∧
      evaluateAmountAndCurrency ctx.amountMinorUnits ctx.currency = .passed ∧
      evaluatePreTerminalInvariance ctx.terminalExists = .passed ∧
      evaluateStage5PredictionValidity ctx.prediction = .passed ∧
      evaluateEpisodeAndTrafficShift (ctx.degradation.episode.map (·.status))
        (ctx.degradation.rca.map (·.1.evidenceAuditPayload)) = .passed := by
  have hgates : ∀ gates : List GateVerdict,
      (gates.find? (· ≠ .passed)).getD .passed = .passed ↔ ∀ g ∈ gates, g = .passed := by
    intro gates
    cases hfind : gates.find? (· ≠ .passed) with
    | none =>
        have hall := List.find?_eq_none.mp hfind
        exact iff_of_true rfl fun g hg => by simpa using hall g hg
    | some g =>
        have hne : g ≠ .passed := by simpa using List.find?_some hfind
        exact iff_of_false hne fun hall => hne (hall g (List.mem_of_find?_eq_some hfind))
  rw [evaluateGates, hgates]
  simp

theorem evaluateKillSwitch_passed :
    evaluateKillSwitch policy = .passed ↔ policy.killSwitchEnabled = false := by
  unfold evaluateKillSwitch
  split <;> simp_all

theorem evaluateAmountAndCurrency_passed {amount : ℤ} {currency : String} :
    evaluateAmountAndCurrency amount currency = .passed ↔
      0 < amount ∧ currency.toList.length = 3 := by
  unfold evaluateAmountAndCurrency
  split_ifs <;> simp_all

theorem evaluatePreTerminalInvariance_passed {terminalExists : Bool} :
    evaluatePreTerminalInvariance terminalExists = .passed ↔ terminalExists = false := by
  cases terminalExists <;> simp [evaluatePreTerminalInvariance]

theorem evaluateStage5PredictionValidity_passed {prediction : Option FailurePrediction} :
    evaluateStage5PredictionValidity prediction = .passed ↔
      ∃ p probability, prediction = some p ∧ p.predictionStatus = .predicted ∧
        p.failureProbability = some probability := by
  cases prediction with
  | none => simp [evaluateStage5PredictionValidity]
  | some p =>
      simp only [evaluateStage5PredictionValidity]
      cases hp : p.failureProbability <;> by_cases hs : p.predictionStatus = .predicted <;>
        simp [hs, hp]

theorem evaluatePolicyCostCurrency_passed {currency : String} :
    evaluatePolicyCostCurrency policy currency = .passed ↔ currency = policy.costCurrency := by
  unfold evaluatePolicyCostCurrency
  split <;> simp_all

/-! ## The best route -/

/-- The candidate order as a linear order of keys. -/
def CandidateRouteScore.sortKey (c : CandidateRouteScore) : ℤᵒᵈ ×ₗ ℤ ×ₗ String :=
  toLex (OrderDual.toDual c.policyUtility, toLex (c.policyCostMinorUnits, c.routeKey.value))

theorem CandidateRouteScore.le_iff {a b : CandidateRouteScore} :
    a.le b = true ↔ a.sortKey ≤ b.sortKey := by
  simp only [le, sortKey, Prod.Lex.toLex_le_toLex, OrderDual.toDual_lt_toDual,
    EmbeddingLike.apply_eq_iff_eq, Bool.or_eq_true, Bool.and_eq_true, decide_eq_true_eq,
    beq_iff_eq]

theorem pairwise_sortKey (candidates : List CandidateRouteScore) :
    (candidates.insertionSort fun a b => a.le b).Pairwise fun a b => a.sortKey ≤ b.sortKey := by
  have htotal : Std.Total fun a b : CandidateRouteScore => a.le b = true :=
    ⟨fun a b => by simpa only [CandidateRouteScore.le_iff] using le_total a.sortKey b.sortKey⟩
  have htrans : IsTrans CandidateRouteScore fun a b => a.le b = true :=
    ⟨fun a b c => by simpa only [CandidateRouteScore.le_iff] using le_trans⟩
  exact (List.pairwise_insertionSort (fun a b : CandidateRouteScore => a.le b = true)
    candidates).imp CandidateRouteScore.le_iff.mp

/-- The scores of the eligible routes, in the order of the policy. -/
def eligibleScores (policy : InterventionPolicy) (ctx : DecisionContext)
    (onCooldown : InterventionRouteKey → Bool) : List CandidateRouteScore :=
  (policy.routes.map (scoreRoute policy ctx onCooldown)).filter (·.eligibility = .eligible)

theorem scoreRoute_eligible {route : RoutePolicyDefinition} :
    (scoreRoute policy ctx onCooldown route).eligibility = .eligible ↔
      ctx.currency = policy.costCurrency ∧ RouteEligible ctx onCooldown route := by
  rw [← evaluatePolicyCostCurrency_passed]
  unfold scoreRoute RouteEligible
  by_cases h : evaluatePolicyCostCurrency policy ctx.currency = .passed <;> simp [h]

/-- An eligible route is ranked by its utility, its cost and its key. -/
theorem sortKey_scoreRoute {route : RoutePolicyDefinition}
    (h : (scoreRoute policy ctx onCooldown route).eligibility = .eligible) :
    (scoreRoute policy ctx onCooldown route).sortKey = routeOrder ctx route ∧
      (scoreRoute policy ctx onCooldown route).policyUtility = routeUtility ctx route := by
  unfold scoreRoute at h ⊢
  dsimp only at h
  simp only [CandidateRouteScore.sortKey, routeOrder, routeUtility, h, if_true, and_self]

theorem mem_eligibleScores {c : CandidateRouteScore} :
    c ∈ eligibleScores policy ctx onCooldown ↔
      ctx.currency = policy.costCurrency ∧ ∃ route ∈ policy.routes,
        RouteEligible ctx onCooldown route ∧ scoreRoute policy ctx onCooldown route = c := by
  simp only [eligibleScores, List.mem_filter, List.mem_map, decide_eq_true_eq]
  constructor
  · rintro ⟨⟨route, hroute, rfl⟩, heligible⟩
    obtain ⟨hcurrency, heligible⟩ := scoreRoute_eligible.mp heligible
    exact ⟨hcurrency, route, hroute, heligible, rfl⟩
  · rintro ⟨hcurrency, route, hroute, heligible, rfl⟩
    exact ⟨⟨route, hroute, rfl⟩, scoreRoute_eligible.mpr ⟨hcurrency, heligible⟩⟩

/-- The best candidate is the score of the best route, and there is one when any route is
eligible. -/
theorem rankedCandidates_best :
    (∃ c, (rankedCandidates policy ctx onCooldown).head? = some c ∧ c.routeKey = key ∧
        policy.minPolicyUtilityThreshold ≤ c.policyUtility) ↔
      ctx.currency = policy.costCurrency ∧
        ∃ route, BestRoute policy ctx onCooldown route ∧ route.routeKey = key := by
  have hperm := List.perm_insertionSort (fun a b : CandidateRouteScore => a.le b = true)
    (eligibleScores policy ctx onCooldown)
  have hsorted := pairwise_sortKey (eligibleScores policy ctx onCooldown)
  have hranked : rankedCandidates policy ctx onCooldown =
      ((eligibleScores policy ctx onCooldown).insertionSort fun a b => a.le b).mapIdx
        fun i c => { c with rank := i + 1 } := rfl
  rw [hranked]
  generalize (eligibleScores policy ctx onCooldown).insertionSort (fun a b => a.le b) = sorted
    at hperm hsorted
  have hmem : ∀ c, c ∈ sorted ↔ c ∈ eligibleScores policy ctx onCooldown := fun c => hperm.mem_iff
  have hfirst : ∀ c rest, sorted = c :: rest → ∀ c' ∈ sorted, c.sortKey ≤ c'.sortKey := by
    rintro c rest rfl c' hc'
    rcases List.mem_cons.mp hc' with rfl | hc'
    · exact le_rfl
    · exact (List.pairwise_cons.mp hsorted).1 c' hc'
  have hscore : ∀ route ∈ policy.routes, RouteEligible ctx onCooldown route →
      ctx.currency = policy.costCurrency →
      scoreRoute policy ctx onCooldown route ∈ sorted ∧
        (scoreRoute policy ctx onCooldown route).sortKey = routeOrder ctx route := by
    intro route hroute heligible hcurrency
    exact ⟨(hmem _).mpr (mem_eligibleScores.mpr ⟨hcurrency, route, hroute, heligible, rfl⟩),
      (sortKey_scoreRoute (scoreRoute_eligible.mpr ⟨hcurrency, heligible⟩)).1⟩
  constructor
  · rintro ⟨c, hhead, rfl, hthreshold⟩
    cases sorted with
    | nil => cases hhead
    | cons best rest =>
        obtain rfl : { best with rank := 1 } = c := by simpa using hhead
        obtain ⟨hcurrency, route, hroute, heligible, rfl⟩ :=
          mem_eligibleScores.mp ((hmem best).mp List.mem_cons_self)
        obtain ⟨hkey, hutility⟩ :=
          sortKey_scoreRoute (scoreRoute_eligible.mpr ⟨hcurrency, heligible⟩)
        refine ⟨hcurrency, route, ⟨hroute, heligible, ?_, hutility ▸ hthreshold⟩, rfl⟩
        intro other hother heligible'
        obtain ⟨hin, hkey'⟩ := hscore other hother heligible' hcurrency
        rw [← hkey, ← hkey']
        exact hfirst _ rest rfl _ hin
  · rintro ⟨hcurrency, route, ⟨hroute, heligible, hbest, hthreshold⟩, rfl⟩
    obtain ⟨hin, hkey⟩ := hscore route hroute heligible hcurrency
    cases sorted with
    | nil => cases hin
    | cons best rest =>
        obtain ⟨-, route', hroute', heligible', rfl⟩ :=
          mem_eligibleScores.mp ((hmem best).mp List.mem_cons_self)
        obtain ⟨hkey', hutility'⟩ :=
          sortKey_scoreRoute (scoreRoute_eligible.mpr ⟨hcurrency, heligible'⟩)
        have hle := hfirst _ rest rfl _ hin
        rw [hkey, hkey'] at hle
        have heq : routeOrder ctx route' = routeOrder ctx route :=
          le_antisymm hle (hbest route' hroute' heligible')
        have hutility : routeUtility ctx route' = routeUtility ctx route :=
          congrArg (fun k => OrderDual.ofDual (ofLex k).1) heq
        have hvalue : route'.routeKey.value = route.routeKey.value :=
          congrArg (fun k => (ofLex (ofLex k).2).2) heq
        refine ⟨{ scoreRoute policy ctx onCooldown route' with rank := 1 }, by simp,
          InterventionRouteKey.value_injective hvalue, ?_⟩
        change _ ≤ (scoreRoute policy ctx onCooldown route').policyUtility
        rw [hutility', hutility]
        exact hthreshold

/-! ## The verdict -/

/-- A verdict that can be persisted: it has a route exactly when it acts, and then the
gates have passed. -/
structure Verdict.Coherent (v : Verdict) : Prop where
  route_iff : v.selectedRoute.isSome = true ↔ v.decisionType = .act
  passed : v.decisionType = .act → v.gateVerdict = .passed

theorem Verdict.coherent_blocked (g : GateVerdict) : (Verdict.blocked g).Coherent :=
  ⟨by simp [blocked], by simp [blocked]⟩

theorem riskVerdict_ne_act (probability : ℚ) (policy : InterventionPolicy) :
    (riskVerdict probability policy).decisionType ≠ .act ∧
      (riskVerdict probability policy).Coherent := by
  unfold riskVerdict
  split <;> exact ⟨by simp, ⟨by simp, by simp⟩⟩

theorem determineVerdict_coherent (best : Option CandidateRouteScore) (probability : ℚ)
    (strength : Option EvidenceStrength) :
    (determineVerdict best probability policy strength).Coherent := by
  cases best with
  | none => exact (riskVerdict_ne_act probability policy).2
  | some c =>
      simp only [determineVerdict]
      split
      · exact ⟨by simp, fun _ => rfl⟩
      · exact (riskVerdict_ne_act probability policy).2

theorem tentativeVerdict_coherent : (tentativeVerdict policy ctx onCooldown).Coherent := by
  unfold tentativeVerdict
  dsimp only
  split_ifs
  · exact Verdict.coherent_blocked _
  · exact Verdict.coherent_blocked _
  · exact Verdict.coherent_blocked _
  · exact determineVerdict_coherent _ _ _

/-- The verdict acts through the best candidate, if it is useful and the risk high. -/
theorem determineVerdict_act {best : Option CandidateRouteScore} {probability : ℚ}
    {strength : Option EvidenceStrength} :
    ((determineVerdict best probability policy strength).decisionType = .act ∧
        (determineVerdict best probability policy strength).selectedRoute = some key) ↔
      policy.actRiskThreshold ≤ probability ∧ ∃ c, best = some c ∧ c.routeKey = key ∧
        policy.minPolicyUtilityThreshold ≤ c.policyUtility := by
  cases best with
  | none =>
      refine iff_of_false (fun h => (riskVerdict_ne_act probability policy).1 h.1) ?_
      rintro ⟨-, c, hc, -⟩
      cases hc
  | some c =>
      simp only [determineVerdict, Option.some.injEq, exists_eq_left']
      split
      · rename_i hboth
        simp [hboth.1, hboth.2]
      · rename_i hnot
        refine iff_of_false (fun h => (riskVerdict_ne_act probability policy).1 h.1) ?_
        rintro ⟨hrisk, -, hutility⟩
        exact hnot ⟨hutility, hrisk⟩

/-- Before the rate limit a verdict acts through a route when the gates pass, the risk is
high and the route is the best. -/
theorem tentativeVerdict_act :
    ((tentativeVerdict policy ctx onCooldown).decisionType = .act ∧
        (tentativeVerdict policy ctx onCooldown).selectedRoute = some key) ↔
      evaluateGates policy ctx = .passed ∧ policy.actRiskThreshold ≤ ctx.failureProbability ∧
        ∃ c, (rankedCandidates policy ctx onCooldown).head? = some c ∧ c.routeKey = key ∧
          policy.minPolicyUtilityThreshold ≤ c.policyUtility := by
  by_cases hgates : evaluateGates policy ctx = .passed
  · by_cases hnone : rankedCandidates policy ctx onCooldown = [] ∧
        ctx.failureProbability ≥ policy.actRiskThreshold
    · have hblocked : (tentativeVerdict policy ctx onCooldown).decisionType ≠ .act := by
        simp [tentativeVerdict, hgates, hnone.1, hnone.2, Verdict.blocked]
      refine iff_of_false (fun h => hblocked h.1) ?_
      rintro ⟨-, -, c, hc, -⟩
      simp [hnone.1] at hc
    · have heq : tentativeVerdict policy ctx onCooldown = determineVerdict
          (rankedCandidates policy ctx onCooldown).head? ctx.failureProbability policy
          ctx.evidenceStrength := by
        simp only [tentativeVerdict, hgates, hnone, ne_eq, not_true_eq_false, if_false]
      rw [heq, determineVerdict_act]
      simp only [hgates, true_and]
  · have hblocked : (tentativeVerdict policy ctx onCooldown).decisionType ≠ .act := by
      simp [tentativeVerdict, hgates, Verdict.blocked]
    exact iff_of_false (fun h => hblocked h.1) fun h => hgates h.1

/-- The risk the verdict weighs is that of a valid prediction. -/
theorem failureProbability_eq {p : FailurePrediction} {probability : ℚ}
    (hp : ctx.prediction = some p) (hprobability : p.failureProbability = some probability) :
    ctx.failureProbability = probability := by
  simp [DecisionContext.failureProbability, hp, hprobability]

/-- Under the rate limit the verdict acts through a route when the conditions hold. -/
theorem tentativeVerdict_actsThrough {recentActDecisions : ℕ} :
    ((tentativeVerdict policy ctx onCooldown).decisionType = .act ∧
        (tentativeVerdict policy ctx onCooldown).selectedRoute = some key ∧
        recentActDecisions < policy.globalRateLimitPerMinute) ↔
      ActsThrough policy ctx onCooldown recentActDecisions key := by
  rw [← and_assoc, tentativeVerdict_act, evaluateGates_passed, evaluateKillSwitch_passed,
    evaluateAmountAndCurrency_passed, evaluatePreTerminalInvariance_passed,
    evaluateStage5PredictionValidity_passed, rankedCandidates_best]
  constructor
  · rintro ⟨⟨⟨hkill, ⟨hamount, hlength⟩, hterminal, ⟨p, probability, hp, hstatus, hsome⟩,
      hepisode⟩, hrisk, hcurrency, hbest⟩, hlimit⟩
    rw [failureProbability_eq hp hsome] at hrisk
    exact ⟨hkill, hamount, hlength, hterminal, ⟨p, probability, hp, hstatus, hsome, hrisk⟩,
      hepisode, hcurrency, hbest, hlimit⟩
  · intro h
    obtain ⟨p, probability, hp, hstatus, hsome, hrisk⟩ := h.predicted
    rw [← failureProbability_eq hp hsome] at hrisk
    exact ⟨⟨⟨h.kill_switch_off, ⟨h.amount_pos, h.currency_length⟩, h.no_terminal,
      ⟨p, probability, hp, hstatus, hsome⟩, h.episode_passes⟩, hrisk, h.cost_currency, h.best⟩,
      h.below_limit⟩

end Verdict

section Decision
variable {policy : InterventionPolicy} {upstream locked admission : Reads} {ref : AttemptRef}
  {tDecide : Time} {ctx : DecisionContext} {d : InterventionDecision}

/-! ## The decision -/

/-- A new decision records the verdict, or that the rate limit blocked it. -/
theorem decideFresh_spec (hctx : decisionContext upstream ref tDecide = .ok ctx)
    (hd : decideFresh policy upstream locked admission ref tDecide = .ok d) :
    let verdict := tentativeVerdict policy ctx (cooldowns policy (locked.shift 1) ctx)
    let recent := countRecentActDecisions (admission.db 0) (ctx.tDecide - Time.seconds 60)
    let final := if verdict.decisionType = .act ∧ policy.globalRateLimitPerMinute ≤ recent then
      Verdict.blocked .failedGlobalRateLimit else verdict
    d.decisionType = final.decisionType ∧ d.selectedRouteId = final.selectedRoute ∧
      d.gateVerdict = final.gateVerdict := by
  simp only [decideFresh, hctx, bind, Except.bind, pure, Except.pure] at hd
  dsimp only
  split at hd
  · rename_i hact
    cases hd
    by_cases hlimit : policy.globalRateLimitPerMinute ≤
        countRecentActDecisions (admission.db 0) (ctx.tDecide - Time.seconds 60)
    · simp [decideAdmitted, newDecision, hact, hlimit]
    · simp [decideAdmitted, newDecision, hlimit]
  · rename_i hact
    cases hd
    simp [newDecision, hact]

/-- A fresh decision is made for a registered attempt, in the context read for it. -/
theorem decideFresh_context
    (hd : decideFresh policy upstream locked admission ref tDecide = .ok d) :
    ∃ ctx, decisionContext upstream ref tDecide = .ok ctx := by
  unfold decideFresh at hd
  cases hctx : decisionContext upstream ref tDecide with
  | error e => simp [hctx, bind, Except.bind] at hd
  | ok ctx => exact ⟨ctx, rfl⟩

/-- The facts are read of the attempt, which is registered. -/
theorem decisionContext_spec (hctx : decisionContext upstream ref tDecide = .ok ctx) :
    (∃ row, (upstream.db 0).require ref = .ok row) ∧ ctx =
      { ref := ref
        tDecide := tDecide
        auth := getPaymentEventById (upstream.shift 1) ref.paymentAttemptId tDecide
        terminalExists := checkTerminalEventExists (upstream.shift 2) ref tDecide
        prediction := getStage5PredictionAsOf (upstream.shift 3) ref tDecide
        degradation := (getPaymentEventById (upstream.shift 1) ref.paymentAttemptId tDecide).elim
          ⟨none, none⟩ fun e => degradationContext (upstream.shift 4) e tDecide } := by
  unfold decisionContext at hctx
  cases hreq : (upstream.db 0).require ref with
  | error e => simp [hreq, bind, Except.bind] at hctx
  | ok row =>
      simp only [hreq, bind, Except.bind, pure, Except.pure] at hctx
      cases hctx
      exact ⟨⟨row, rfl⟩, rfl⟩

theorem decisionContext_ref (hctx : decisionContext upstream ref tDecide = .ok ctx) :
    ctx.ref = ref ∧ ctx.tDecide = tDecide := by
  rw [(decisionContext_spec hctx).2]
  exact ⟨rfl, rfl⟩

theorem decisionContext_auth (hctx : decisionContext upstream ref tDecide = .ok ctx) :
    ctx.auth = getPaymentEventById (upstream.shift 1) ref.paymentAttemptId tDecide := by
  rw [(decisionContext_spec hctx).2]

/-- The prediction a decision weighs is stored. -/
theorem decisionContext_prediction (hctx : decisionContext upstream ref tDecide = .ok ctx)
    {p : FailurePrediction} (hp : ctx.prediction = some p) : p ∈ (upstream.db 3).predictions := by
  rw [(decisionContext_spec hctx).2] at hp
  have hmem := (List.mem_filter.mp (Table.latestBy_mem hp)).1
  unfold attemptPredictions at hmem
  split at hmem
  · exact (List.mem_filter.mp hmem).1
  · cases hmem

/-- A call returns the decision stored for the facts it has read, or goes on with them. -/
theorem decideUpstream_cases {res : InterventionDecision ⊕ DecisionContext}
    (h : decideUpstream policy upstream ref tDecide = .ok res) :
    ∃ ctx, decisionContext upstream ref tDecide = .ok ctx ∧
      ((∃ d, res = .inl d ∧ storedDecision policy (upstream.db 16) ctx = some d) ∨
        res = .inr ctx) := by
  unfold decideUpstream at h
  cases hctx : decisionContext upstream ref tDecide with
  | error e => simp [hctx, bind, Except.bind] at h
  | ok ctx =>
      simp only [hctx, bind, Except.bind, pure, Except.pure] at h
      refine ⟨ctx, rfl, ?_⟩
      split at h <;> cases h
      · exact .inl ⟨_, rfl, ‹_›⟩
      · exact .inr rfl

/-- A fresh decision is of the attempt it was made for. -/
theorem decideFresh_ref (hctx : decisionContext upstream ref tDecide = .ok ctx)
    (hd : decideFresh policy upstream locked admission ref tDecide = .ok d) :
    d.sourceSystem = ref.sourceSystem ∧ d.paymentAttemptId = ref.paymentAttemptId := by
  have href := (decisionContext_ref hctx).1
  simp only [decideFresh, hctx, bind, Except.bind, pure, Except.pure] at hd
  split at hd
  · cases hd
    exact ⟨by rw [decideAdmitted, sourceSystem_newDecision, href],
      by rw [decideAdmitted, paymentAttemptId_newDecision, href]⟩
  · cases hd
    exact ⟨by rw [sourceSystem_newDecision, href], by rw [paymentAttemptId_newDecision, href]⟩

/-- A fresh decision selects a route exactly when it acts, and then its gates passed. -/
theorem decideFresh_coherent (hctx : decisionContext upstream ref tDecide = .ok ctx)
    (hd : decideFresh policy upstream locked admission ref tDecide = .ok d) :
    (d.selectedRouteId.isSome = true ↔ d.decisionType = .act) ∧
      (d.decisionType = .act → d.gateVerdict = .passed) := by
  obtain ⟨htype, hroute, hgate⟩ := decideFresh_spec hctx hd
  rw [htype, hroute, hgate]
  split
  · have hblocked := Verdict.coherent_blocked .failedGlobalRateLimit
    exact ⟨hblocked.route_iff, hblocked.passed⟩
  · have hverdict :
        (tentativeVerdict policy ctx (cooldowns policy (locked.shift 1) ctx)).Coherent :=
      tentativeVerdict_coherent
    exact ⟨hverdict.route_iff, hverdict.passed⟩

/-- A fresh decision acts through a route exactly under the conditions to do so. -/
theorem decideFresh_actsThrough {key : InterventionRouteKey}
    (hctx : decisionContext upstream ref tDecide = .ok ctx)
    (hd : decideFresh policy upstream locked admission ref tDecide = .ok d) :
    (d.decisionType = .act ∧ d.selectedRouteId = some key) ↔
      ActsThrough policy ctx (cooldowns policy (locked.shift 1) ctx)
        (countRecentActDecisions (admission.db 0) (ctx.tDecide - Time.seconds 60)) key := by
  obtain ⟨htype, hroute, -⟩ := decideFresh_spec hctx hd
  rw [htype, hroute, ← tentativeVerdict_actsThrough]
  split
  · rename_i hblocked
    refine iff_of_false ?_ fun h => absurd h.2.2 (Nat.not_lt.mpr hblocked.2)
    rintro ⟨hact, -⟩
    cases hact
  · rename_i hadmitted
    constructor
    · rintro ⟨hact, hkey⟩
      exact ⟨hact, hkey, Nat.lt_of_not_le fun hle => hadmitted ⟨hact, hle⟩⟩
    · rintro ⟨hact, hkey, -⟩
      exact ⟨hact, hkey⟩

/-! ## The order of the routes -/

section Order
variable {routes' : List RoutePolicyDefinition}

/-- The candidates are ranked alike in whatever order the policy lists its routes, each
under its own key. -/
theorem rankedCandidates_perm {onCooldown : InterventionRouteKey → Bool}
    (hperm : routes'.Perm policy.routes) (hkeys : (policy.routes.map (·.routeKey)).Nodup) :
    rankedCandidates { policy with routes := routes' } ctx onCooldown =
      rankedCandidates policy ctx onCooldown := by
  have hscores : (eligibleScores { policy with routes := routes' } ctx onCooldown).Perm
      (eligibleScores policy ctx onCooldown) := (hperm.map _).filter _
  have hsorted : (eligibleScores { policy with routes := routes' } ctx onCooldown).insertionSort
        (fun a b => a.le b) =
      (eligibleScores policy ctx onCooldown).insertionSort fun a b => a.le b := by
    refine List.Perm.eq_of_pairwise ?_ (pairwise_sortKey _) (pairwise_sortKey _)
      ((List.perm_insertionSort ..).trans (hscores.trans (List.perm_insertionSort ..).symm))
    intro a b ha hb hab hba
    -- Two candidates of one place in the order have one key, and so are of one route.
    have hvalue : a.routeKey.value = b.routeKey.value :=
      congrArg (fun k => (ofLex (ofLex k).2).2) (le_antisymm hab hba)
    have hkey := InterventionRouteKey.value_injective hvalue
    have ha' := hscores.mem_iff.mp ((List.perm_insertionSort ..).mem_iff.mp ha)
    have hb' := (List.perm_insertionSort ..).mem_iff.mp hb
    obtain ⟨-, route, hroute, -, rfl⟩ := mem_eligibleScores.mp ha'
    obtain ⟨-, route', hroute', -, rfl⟩ := mem_eligibleScores.mp hb'
    rw [List.inj_on_of_nodup_map hkeys hroute hroute' hkey]
  exact congrArg (List.mapIdx fun i c => { c with rank := i + 1 }) hsorted

/-- On one store, neither are the cooldowns. -/
theorem cooldowns_perm {db : Database} (hperm : routes'.Perm policy.routes) :
    cooldowns { policy with routes := routes' } (.all db) ctx = cooldowns policy (.all db) ctx := by
  have heq : ∀ (policy : InterventionPolicy) key, cooldowns policy (.all db) ctx key =
      policy.routes.any fun route => route.routeKey == key &&
        hasRecentRouteDecision db ctx.ref key
          (ctx.tDecide - Time.seconds route.cooldownSeconds) := by
    intro policy key
    conv_rhs => rw [← List.zipIdx_map_fst 0 policy.routes, List.any_map]
    rfl
  funext key
  rw [heq, heq]
  exact hperm.any_eq

/-- The decision of an attempt's state does not depend on the order of the routes. -/
theorem decideFresh_perm {db : Database} (hperm : routes'.Perm policy.routes)
    (hkeys : (policy.routes.map (·.routeKey)).Nodup) :
    decideFresh { policy with routes := routes' } upstream (.all db) admission ref tDecide =
      decideFresh policy upstream (.all db) admission ref tDecide := by
  have hverdict : ∀ ctx : DecisionContext,
      tentativeVerdict { policy with routes := routes' } ctx
          (cooldowns { policy with routes := routes' } ((Reads.all db).shift 1) ctx) =
        tentativeVerdict policy ctx (cooldowns policy ((Reads.all db).shift 1) ctx) := by
    intro ctx
    have hcooldowns : cooldowns { policy with routes := routes' } (.all db) ctx =
        cooldowns policy (.all db) ctx := cooldowns_perm hperm
    have hranked : rankedCandidates { policy with routes := routes' } ctx
        (cooldowns policy (.all db) ctx) =
          rankedCandidates policy ctx (cooldowns policy (.all db) ctx) :=
      rankedCandidates_perm hperm hkeys
    change tentativeVerdict _ ctx (cooldowns _ (.all db) ctx) =
      tentativeVerdict _ ctx (cooldowns _ (.all db) ctx)
    rw [hcooldowns]
    simp only [tentativeVerdict, hranked]
    rfl
  unfold decideFresh
  simp only [hverdict]
  rfl

end Order

/-! ## The command of a decision -/

/-- The registry refuses an attempt for its identity, never for the decision. -/
theorem require_ne_invalidDecision {db : Database} :
    db.require ref ≠ .error .invalidDecisionForExecution := by
  intro h
  unfold Database.require at h
  split at h
  · cases h
  · split at h <;> cases h

/-- A decision that acts, with a route and passed gates, gets a command unless the registry
refuses its attempt or its command is another provider's. -/
theorem createCommand_act (r : Reads) (expiresInSeconds : ℤ) (now : Time)
    (hsource : d.sourceSystem = ref.sourceSystem)
    (hattempt : d.paymentAttemptId = ref.paymentAttemptId)
    (hact : d.decisionType = .act) (hroute : d.selectedRouteId.isSome = true)
    (hgate : d.gateVerdict = .passed) :
    createCommand r d expiresInSeconds now ≠ .error .invalidDecisionForExecution ∧
      ((∃ res, createCommand r d expiresInSeconds now = .ok res) ↔
        (∃ row, (r.db 0).require ref = .ok row) ∧
          ∀ c, (r.db 1).commands.find? (fun c => c.decisionId = d.decisionId) = some c →
            c.sourceSystem = ref.sourceSystem) := by
  obtain ⟨route, hroute⟩ := Option.isSome_iff_exists.mp hroute
  unfold createCommand Database.requireKey
  simp only [hact, hroute, hgate, hsource, hattempt, AttemptRef.forKey_self, ne_eq,
    not_true_eq_false, if_false, bind, Except.bind, pure, Except.pure, throw, throwThe,
    MonadExceptOf.throw]
  cases hrequire : (r.db 0).require ref with
  | error err =>
      have hne : err ≠ .invalidDecisionForExecution := fun h =>
        require_ne_invalidDecision (h ▸ hrequire)
      simp [hne]
  | ok row =>
      cases hfind : (r.db 1).commands.find? fun c => c.decisionId = d.decisionId with
      | none =>
          cases hversion : getCommandByAttemptAndVersion (r.db 2) ref.sourceSystem
            ref.paymentAttemptId d.decisionVersion <;> simp
      | some c =>
          by_cases hprovider : c.sourceSystem = ref.sourceSystem <;> simp [hprovider]

/-- A decision that does not act is refused as invalid. -/
theorem createCommand_not_act (r : Reads) (expiresInSeconds : ℤ) (now : Time)
    (hact : d.decisionType ≠ .act) :
    createCommand r d expiresInSeconds now = .error .invalidDecisionForExecution := by
  unfold createCommand
  simp only [ne_eq, hact, not_false_eq_true, if_true]
  rfl

end Decision

/-! ## Specification -/

/-- A new decision acts through a route exactly under the conditions to do so. On a fixed
store it does not depend on the order in which the policy lists its routes. It has a route
exactly when it acts, and exactly then its command is not refused as invalid and, while the
attempt is registered and the decision's command, if any, is of its provider, created. -/
theorem decideFresh_iff {policy : InterventionPolicy} {upstream locked admission : Reads}
    {ref : AttemptRef} {tDecide : Time} {d : InterventionDecision}
    (hd : decideFresh policy upstream locked admission ref tDecide = .ok d) :
    (∃ ctx, decisionContext upstream ref tDecide = .ok ctx ∧
      ∀ key, (d.decisionType = .act ∧ d.selectedRouteId = some key) ↔
        ActsThrough policy ctx (cooldowns policy (locked.shift 1) ctx)
          (countRecentActDecisions (admission.db 0) (tDecide - Time.seconds 60)) key) ∧
    (∀ routes' db, routes'.Perm policy.routes → (policy.routes.map (·.routeKey)).Nodup →
      locked = .all db → decideFresh { policy with routes := routes' } upstream locked admission
        ref tDecide = .ok d) ∧
    (d.selectedRouteId.isSome = true ↔ d.decisionType = .act) ∧
    ∀ r expiresInSeconds now,
      (createCommand r d expiresInSeconds now ≠ .error .invalidDecisionForExecution ↔
        d.decisionType = .act) ∧
      ((∃ row, (r.db 0).require ref = .ok row) →
        (∀ c ∈ (r.db 1).commands, c.decisionId = d.decisionId →
          c.sourceSystem = ref.sourceSystem) →
        ((∃ res, createCommand r d expiresInSeconds now = .ok res) ↔ d.decisionType = .act)) := by
  obtain ⟨ctx, hctx⟩ := decideFresh_context hd
  obtain ⟨hroute, hgate⟩ := decideFresh_coherent hctx hd
  obtain ⟨hsource, hattempt⟩ := decideFresh_ref hctx hd
  have htime := (decisionContext_ref hctx).2
  refine ⟨⟨ctx, hctx, fun key => ?_⟩, ?_, hroute, fun r expiresInSeconds now => ?_⟩
  · rw [← htime]
    exact decideFresh_actsThrough hctx hd
  · rintro routes' db hperm hkeys rfl
    rw [decideFresh_perm hperm hkeys]
    exact hd
  · by_cases hact : d.decisionType = .act
    · obtain ⟨hvalid, hcreated⟩ := createCommand_act r expiresInSeconds now hsource hattempt hact
        (hroute.mpr hact) (hgate hact)
      refine ⟨iff_of_true hvalid hact, fun hregistered hcommands => iff_of_true ?_ hact⟩
      refine hcreated.mpr ⟨hregistered, fun c hc => ?_⟩
      exact hcommands c (List.mem_of_find?_eq_some hc) (by simpa using List.find?_some hc)
    · have hrefused := createCommand_not_act r expiresInSeconds now hact
      refine ⟨iff_of_false (fun h => h hrefused) hact, fun _ _ => iff_of_false ?_ hact⟩
      rintro ⟨res, hres⟩
      rw [hrefused] at hres
      cases hres

open FingerprintExample in
/-- The authorized and predicted payment is acted on through the most useful route that
applies without a diagnosis. -/
theorem decideFresh_iff_before : ∃ d ctx, fresh before = .ok d ∧
    decisionContext (.all before) ref 10 = .ok ctx ∧
    ActsThrough getDefaultPolicy ctx (cooldowns getDefaultPolicy (.all before) ctx) 0
      .fallbackPaymentLink := by
  have hfacts : (fresh before).toOption.map (fun d => (d.decisionType, d.selectedRouteId)) =
      some (.act, some .fallbackPaymentLink) := by decide +kernel
  cases hd : fresh before with
  | error e => simp [hd, Except.toOption] at hfacts
  | ok d =>
      obtain ⟨⟨ctx, hctx, hiff⟩, -⟩ := decideFresh_iff hd
      simp only [hd, Except.toOption, Option.map_some, Option.some.injEq, Prod.mk.injEq] at hfacts
      exact ⟨d, ctx, rfl, hctx, (hiff _).mp hfacts⟩

end RevenueRecovery
