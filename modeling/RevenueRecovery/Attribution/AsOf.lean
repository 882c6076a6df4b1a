import RevenueRecovery.Attribution.Soundness
import RevenueRecovery.Execution.Started

/-!
# Stage 8: the information barrier of attributions

Two reachable stores that agree on what was stamped by a time give the first attribution as
of that time the same content (`attribution_asOf`). The one input read from the present is
the command's status, and it does not matter: a command with an execution attempt has
started in every reachable store, and without one it is untreated whatever its status.

## Main definitions
* `CounterfactualAttribution.content` : an attribution up to its id and version.
* `AgreeAsOf` : two stores agree on what a command's attribution may depend on.
-/
namespace RevenueRecovery

open Transaction

/-- The attribution without its row id and version. -/
def CounterfactualAttribution.content (a : CounterfactualAttribution) :
    CounterfactualAttribution :=
  { a with attributionId := ⟨a.commandId, 0⟩, attributionVersion := 0 }

/-- The two stores have the command with one payload, the same decision, prediction and
registry row, and the same execution attempts, observations and events of it up to `asOf`.
Events are compared as the lists from which the rows of a query are taken. -/
structure AgreeAsOf (db db' : Database) (id : CommandId) (asOf : Time) : Prop where
  command : ∃ c c', db.getCommandById id = some c ∧ db'.getCommandById id = some c' ∧
    c.SamePayload c' ∧ getDecision db c.decisionId = getDecision db' c.decisionId ∧
    (∀ d, getDecision db c.decisionId = some d →
      d.stage5PredictionId.bind (getPrediction db) =
        d.stage5PredictionId.bind (getPrediction db')) ∧
    db.findAttempt c.paymentAttemptId = db'.findAttempt c.paymentAttemptId
  executionAttempts : ∀ a, a.commandId = id → a.createdAt ≤ asOf →
    (a ∈ db.executionAttempts ↔ a ∈ db'.executionAttempts)
  observations : ∀ o, o.commandId = id → o.asOfTimestamp ≤ asOf →
    (o ∈ db.observations ↔ o ∈ db'.observations)
  events : (db.events.filter fun e => e.ingestedAt ≤ asOf) =
    db'.events.filter fun e => e.ingestedAt ≤ asOf

/-! ## The queries -/

section Queries
variable {db db' : Database} {id : CommandId} {asOf : Time}

theorem AgreeAsOf.latestExecutionAttempt (h : AgreeAsOf db db' id asOf) (hu : Unique db) :
    getLatestExecutionAttempt db id asOf = getLatestExecutionAttempt db' id asOf := by
  refine Table.latestBy_congr (fun a => ?_) fun a ha b hb hab => ?_
  · simp only [List.mem_filter, decide_eq_true_eq]
    exact ⟨fun ⟨hmem, hid, hle⟩ => ⟨(h.executionAttempts a hid hle).mp hmem, hid, hle⟩,
      fun ⟨hmem, hid, hle⟩ => ⟨(h.executionAttempts a hid hle).mpr hmem, hid, hle⟩⟩
  · simp only [List.mem_filter, decide_eq_true_eq] at ha hb
    exact hu.executionAttempt_eq ha.1 hb.1 (ha.2.1.trans hb.2.1.symm) hab

theorem AgreeAsOf.latestOutcomeObservation (h : AgreeAsOf db db' id asOf) (hu : Unique db) :
    getLatestOutcomeObservation db id asOf = getLatestOutcomeObservation db' id asOf := by
  refine Table.latestBy_congr (fun o => ?_) fun a ha b hb hab => ?_
  · simp only [List.mem_filter, decide_eq_true_eq]
    exact ⟨fun ⟨hmem, hid, hle⟩ => ⟨(h.observations o hid hle).mp hmem, hid, hle⟩,
      fun ⟨hmem, hid, hle⟩ => ⟨(h.observations o hid hle).mpr hmem, hid, hle⟩⟩
  · simp only [List.mem_filter, decide_eq_true_eq] at ha hb
    exact hu.observation_eq ha.1 hb.1 (ha.2.1.trans hb.2.1.symm) (.inl hab)

/-- The amount is the same for every time up to `asOf`. -/
theorem AgreeAsOf.canonicalPaymentAmount (h : AgreeAsOf db db' id asOf) {order : ℕ → ℕ → ℕ}
    {episodeOrder : EpisodeId → ℕ} (k : ℕ) (sourceSystem key : String) {t : Time}
    (ht : t ≤ asOf) :
    getCanonicalPaymentAmount ⟨fun _ => db, order, episodeOrder⟩ k sourceSystem key t =
      getCanonicalPaymentAmount ⟨fun _ => db', order, episodeOrder⟩ k sourceSystem key t := by
  have hrows : ∀ d : Database, (d.events.filter fun e =>
      isTriggerFrom sourceSystem key e && e.ingestedAt ≤ t) =
      (d.events.filter fun e => e.ingestedAt ≤ asOf).filter fun e =>
        isTriggerFrom sourceSystem key e && e.ingestedAt ≤ t := by
    intro d
    rw [List.filter_filter]
    refine List.filter_congr fun e _ => ?_
    by_cases hle : e.ingestedAt ≤ t
    · simp [hle, hle.trans ht]
    · simp [hle]
  rw [getCanonicalPaymentAmount, getCanonicalPaymentAmount, Reads.rows, Reads.rows, hrows db,
    hrows db', h.events]

end Queries

/-! ## Attributions -/

section Attribution

/-- With an attempt recorded only for a started command, the treatment does not depend on the
command's status. -/
theorem treatmentStatus_of_started {u : Upstream}
    (h : u.attempt.isSome = true → u.command.commandStatus.started = true) :
    u.treatmentStatus = if u.decision.decisionType ≠ .act then .untreated
      else match u.attempt with
        | none => .untreated
        | some attempt =>
            if attempt.executionStatus ≠ .success then .executionFailed
            else if u.outcomeBefore attempt then .untreated
            else .treated := by
  unfold Upstream.treatmentStatus
  cases hattempt : u.attempt with
  | none => split_ifs <;> rfl
  | some attempt =>
      have hstarted := h (by rw [hattempt]; rfl)
      have hnot : u.command.commandStatus ∉
          [CommandStatus.notNeeded, CommandStatus.expired, CommandStatus.pending] := by
        intro hmem
        cases hs : u.command.commandStatus <;> simp_all [CommandStatus.started]
      rw [if_neg hnot]

/-- The content of an attribution does not depend on the command's status either. -/
theorem newAttribution_content {u : Upstream} {c' : InterventionCommand}
    (hsame : u.command.SamePayload c')
    (h : u.attempt.isSome = true → u.command.commandStatus.started = true)
    (h' : u.attempt.isSome = true → c'.commandStatus.started = true) (n n' : ℕ) (asOf : Time) :
    (u.newAttribution n asOf).content =
      (Upstream.newAttribution { u with command := c' } n' asOf).content := by
  have htreatment : u.treatmentStatus =
      Upstream.treatmentStatus { u with command := c' } := by
    have h'' : (Upstream.mk c' u.attempt u.observation u.decision u.prediction
        u.paymentAmount).attempt.isSome = true → c'.commandStatus.started = true := h'
    rw [treatmentStatus_of_started h, treatmentStatus_of_started h'']
    rfl
  have hresult : u.result = Upstream.result { u with command := c' } := by
    simp only [Upstream.result, htreatment]
    rfl
  unfold InterventionCommand.SamePayload at hsame
  simp only [Upstream.newAttribution, CounterfactualAttribution.content, Upstream.auditPayload,
    hresult, htreatment]
  rw [hsame]
  rfl

variable {db db' : Database} {id : CommandId} {asOf : Time} {order : ℕ → ℕ → ℕ}
  {episodeOrder : EpisodeId → ℕ}

/-- Agreeing stores give the same upstream rows, up to the command's status. -/
theorem AgreeAsOf.readUpstream (h : AgreeAsOf db db' id asOf) (hu : Unique db) :
    ∃ c c', db.getCommandById id = some c ∧ db'.getCommandById id = some c' ∧
      c.SamePayload c' ∧
      (∀ u, readUpstream ⟨fun _ => db, order, episodeOrder⟩ id asOf = .ok u → u.command = c) ∧
      readUpstream ⟨fun _ => db', order, episodeOrder⟩ id asOf =
        (readUpstream ⟨fun _ => db, order, episodeOrder⟩ id asOf).map
          fun u => { u with command := c' } := by
  obtain ⟨c, c', hget, hget', hsame, hdecision, hprediction, hregistry⟩ := h.command
  refine ⟨c, c', hget, hget', hsame, fun u hok => ?_, ?_⟩
  · have := (readUpstream_spec hok).1
    rw [hget] at this
    exact (Option.some.inj this).symm
  · have hsource := hsame.sourceSystem
    have hkey := hsame.paymentAttemptId
    have hdid := hsame.decisionId
    have hrequire : db'.requireKey c.sourceSystem c.paymentAttemptId =
        db.requireKey c.sourceSystem c.paymentAttemptId := by
      simp only [Database.requireKey]
      cases hkeyOk : AttemptRef.forKey c.sourceSystem c.paymentAttemptId with
      | error e => rfl
      | ok ref =>
          have hrefkey := (AttemptRef.forKey_ok hkeyOk).2
          simp only [bind, Except.bind, Database.require, hrefkey, hregistry]
    simp only [RevenueRecovery.readUpstream, hget, hget', hsource, hkey, hdid, hrequire,
      ← h.latestExecutionAttempt hu, ← h.latestOutcomeObservation hu, ← hdecision]
    cases hd : getDecision db c.decisionId with
    | none => rfl
    | some d =>
        have hamount : getCanonicalPaymentAmount ⟨fun _ => db, order, episodeOrder⟩ 6
            c.sourceSystem c.paymentAttemptId (min d.decidedAt asOf) =
            getCanonicalPaymentAmount ⟨fun _ => db', order, episodeOrder⟩ 6
              c.sourceSystem c.paymentAttemptId (min d.decidedAt asOf) :=
          h.canonicalPaymentAmount 6 c.sourceSystem c.paymentAttemptId (min_le_right _ _)
        simp only [← hprediction d hd, hamount]
        cases hreq : db.requireKey c.sourceSystem c.paymentAttemptId with
        | error e => rfl
        | ok row =>
            simp only [bind, Except.bind, pure, Except.pure]
            generalize getLatestExecutionAttempt db id asOf = attempt
            generalize getLatestOutcomeObservation db id asOf = observation
            generalize d.stage5PredictionId.bind (getPrediction db) = prediction
            generalize getCanonicalPaymentAmount _ 6 _ _ _ = amount
            have hconsistent : Upstream.consistent ⟨c', attempt, observation, d, prediction,
                amount.getD 0⟩ = Upstream.consistent ⟨c, attempt, observation, d, prediction,
                amount.getD 0⟩ := by
              simp only [Upstream.consistent, hsource, hkey]
            rw [hconsistent]
            cases Upstream.consistent ⟨c, attempt, observation, d, prediction, amount.getD 0⟩ <;>
              rfl

/-- In a reachable store, a first attribution is that of the upstream rows: the latest one
belongs to the provider of its command. -/
theorem attributePaymentIntervention_first (hrows : Justified namesCommand db)
    (hu : Unique db) (hfirst : getAttributionByAsOf db id asOf = none) :
    attributePaymentIntervention ⟨fun _ => db, order, episodeOrder⟩ id asOf =
      (RevenueRecovery.readUpstream ⟨fun _ => db, fun i => order (4 + i), episodeOrder⟩ id
        asOf).map fun u => .inr (u.newAttribution ((getLatestAttribution db id).elim 1
          (·.attributionVersion + 1)) asOf) := by
  have hshift : (Reads.mk (fun _ => db) order episodeOrder).shift 4 =
      ⟨fun _ => db, fun i => order (4 + i), episodeOrder⟩ := rfl
  unfold attributePaymentIntervention
  simp only [hfirst, hshift, bind, Except.bind, pure, Except.pure]
  cases hlatest : getLatestAttribution db id with
  | none =>
      cases RevenueRecovery.readUpstream ⟨fun _ => db, fun i => order (4 + i), episodeOrder⟩ id
        asOf <;> rfl
  | some a =>
      have hmem : a ∈ db.attributions := (List.mem_filter.mp (Table.latestBy_mem hlatest)).1
      obtain ⟨-, c, hc, hcid, hsource, -⟩ := hrows.attributions a hmem
      have hcheck : checkCommandProvider db a = .ok () := by
        simp [checkCommandProvider, ← hcid, hu.getCommandById hc, hsource]
      simp only [hcheck]
      cases RevenueRecovery.readUpstream ⟨fun _ => db, fun i => order (4 + i), episodeOrder⟩ id
        asOf <;> rfl

/-- A command found in a reachable store has started if it has an execution attempt. -/
theorem upstream_started (hstarted : Started db) (hu : Unique db) {c : InterventionCommand}
    (hget : db.getCommandById id = some c) {attempt : ExecutionAttempt}
    (hattempt : getLatestExecutionAttempt db id asOf = some attempt) :
    c.commandStatus.started = true := by
  have hmem := Table.latestBy_mem hattempt
  simp only [List.mem_filter, decide_eq_true_eq] at hmem
  obtain ⟨c', hc', hid, hstatus⟩ := hstarted attempt hmem.1
  have hget' := hu.getCommandById hc'
  rw [hid, hmem.2.1, hget] at hget'
  obtain rfl := Option.some.inj hget'
  exact hstatus

variable {model model' : FailurePredictionModel} {policy policy' : InterventionPolicy}

/-- Two reachable stores that agree on what a command's attribution as of a time may depend
on give its first attribution as of that time the same content, or the same error. -/
theorem attribution_asOf {as as' : List TransactionAction} {w w' : TransactionWorld}
    (h : transactionRun model policy as = some w)
    (h' : transactionRun model' policy' as' = some w') (hagree : AgreeAsOf w.db w'.db id asOf)
    (hfirst : getAttributionByAsOf w.db id asOf = none)
    (hfirst' : getAttributionByAsOf w'.db id asOf = none) :
    (attributePaymentIntervention ⟨fun _ => w.db, order, episodeOrder⟩ id asOf).map
        (Sum.map (·.content) (·.content)) =
      (attributePaymentIntervention ⟨fun _ => w'.db, order, episodeOrder⟩ id asOf).map
        (Sum.map (·.content) (·.content)) := by
  have hu := (transactionRun_met h).store
  have hu' := (transactionRun_met h').store
  rw [attributePaymentIntervention_first (transactionRun_namesCommand h) hu hfirst,
    attributePaymentIntervention_first (transactionRun_namesCommand h') hu' hfirst']
  obtain ⟨c, c', hget, hget', hsame, hcommand, hupstream⟩ := hagree.readUpstream hu
  rw [hupstream]
  cases hread : RevenueRecovery.readUpstream ⟨fun _ => w.db, fun i => order (4 + i),
      episodeOrder⟩ id asOf with
  | error e => rfl
  | ok u =>
      obtain rfl := hcommand u hread
      obtain ⟨-, hattempt, -⟩ := readUpstream_spec hread
      have hlatest : u.attempt = getLatestExecutionAttempt w'.db id asOf :=
        hattempt.trans (hagree.latestExecutionAttempt hu)
      have hstarted : ∀ {d : Database} {x : InterventionCommand}, Started d → Unique d →
          d.getCommandById id = some x → u.attempt = getLatestExecutionAttempt d id asOf →
          u.attempt.isSome = true → x.commandStatus.started = true := by
        intro d x hd hud hx heq hsome
        obtain ⟨attempt, ha⟩ := Option.isSome_iff_exists.mp hsome
        exact upstream_started hd hud hx (heq.symm.trans ha)
      simp only [Except.map, Sum.map_inr]
      rw [newAttribution_content hsame (hstarted (transactionRun_started h) hu hget hattempt)
        (hstarted (transactionRun_started h') hu' hget' hlatest)]

end Attribution

namespace AsOfExample
open AttributionExample

/-- The connection's caller makes a request, and the call takes `n` more steps; the executor
returns a success. -/
def request (r : Request) (n : ℕ) : List TransactionAction :=
  List.replicate (n + 1) (.advance 0
    { request := r
      result := some ⟨.success, "SIMULATOR_V1", true, "GATEWAY_REROUTE", none, none, 15⟩ })

/-- Fifty failures and an authorization, its prediction and its decision. -/
def decided : List TransactionAction :=
  (List.range 50).map (fun i => .arrive (.event (failure i))) ++
    [.arrive (.event authorization), .arrive .connect] ++
    request (.registerAttempt ⟨"pay_1", razorpaySourceSystem, "pay_1", 0⟩) 0 ++
    request (.storeAnalytics tables) 0 ++ request (.predict ref tDecide) 3 ++
    request (.decide ref tDecide) 4

/-- The command of the decision. -/
def created (d : InterventionDecision) : List TransactionAction :=
  decided ++ request (.createCommand d 300 tDecide) 2 ++ request .commit 0

/-- Its execution, and the observation of a capture. -/
def settled (d : InterventionDecision) : List TransactionAction :=
  created d ++ request (.executeCommand ⟨d.decisionId⟩ tDecide) 8 ++ [.arrive (.event capture)] ++
    request (.observe ⟨d.decisionId⟩ (tDecide + Time.minutes 1)) 2 ++ request .commit 0

def world (as : List TransactionAction) : Option TransactionWorld :=
  transactionRun deterministicBaselineModel getDefaultPolicy as

/-- The first attribution of a command as of a time, if the call appends one. -/
def firstAttribution (db : Database) (id : CommandId) (asOf : Time) :
    Option CounterfactualAttribution :=
  match attributePaymentIntervention (.all db) id asOf with
  | .ok (.inr a) => some a
  | _ => none

theorem firstAttribution_some {db : Database} {id : CommandId} {asOf : Time}
    {a : CounterfactualAttribution} (h : firstAttribution db id asOf = some a) :
    attributePaymentIntervention (.all db) id asOf = .ok (.inr a) := by
  unfold firstAttribution at h
  split at h
  · rename_i heq
    rw [heq, Option.some.inj h]
  · cases h

/-- The store agrees with a later one up to `asOf`, having neither execution attempts nor
observations by then. -/
def agreesBefore (db db' : Database) (id : CommandId) (asOf : Time) : Bool :=
  (db.getCommandById id).isSome &&
    ((db'.getCommandById id).map fun c => c.setStatus .pending none 0) ==
      ((db.getCommandById id).map fun c => c.setStatus .pending none 0) &&
    db.decisions == db'.decisions && db.predictions == db'.predictions &&
    db.attempts == db'.attempts &&
    (db.executionAttempts ++ db'.executionAttempts).all (asOf < ·.createdAt) &&
    (db.observations ++ db'.observations).all (asOf < ·.asOfTimestamp) &&
    (db.events.filter fun e => e.ingestedAt ≤ asOf) ==
      (db'.events.filter fun e => e.ingestedAt ≤ asOf)

theorem agreesBefore_agreeAsOf {db db' : Database} {id : CommandId} {asOf : Time}
    (h : agreesBefore db db' id asOf = true) : AgreeAsOf db db' id asOf := by
  simp only [agreesBefore, Bool.and_eq_true, beq_iff_eq, List.all_eq_true, List.mem_append,
    decide_eq_true_eq] at h
  obtain ⟨⟨⟨⟨⟨⟨⟨hsome, hcommand⟩, hdecisions⟩, hpredictions⟩, hregistry⟩, hattempts⟩,
    hobservations⟩, hevents⟩ := h
  refine ⟨?_, fun a _ hle => ?_, fun o _ hle => ?_, hevents⟩
  · obtain ⟨c, hc⟩ := Option.isSome_iff_exists.mp hsome
    rw [hc] at hcommand
    obtain ⟨c', hc', hsame⟩ := Option.map_eq_some_iff.mp hcommand
    have hprediction : getPrediction db = getPrediction db' := by
      funext p
      rw [getPrediction, getPrediction, hpredictions]
    refine ⟨c, c', hc, hc', ?_, by rw [getDecision, getDecision, hdecisions],
      fun d _ => by rw [hprediction], by rw [Database.findAttempt, Database.findAttempt, hregistry]⟩
    cases c'
    cases c
    simp only [InterventionCommand.setStatus, InterventionCommand.mk.injEq] at hsame
    simp [InterventionCommand.SamePayload, InterventionCommand.setStatus, hsame]
  · exact ⟨fun ha => absurd (hattempts a (.inl ha)) (not_lt.mpr hle),
      fun ha => absurd (hattempts a (.inr ha)) (not_lt.mpr hle)⟩
  · exact ⟨fun ho => absurd (hobservations o (.inl ho)) (not_lt.mpr hle),
      fun ho => absurd (hobservations o (.inr ho)) (not_lt.mpr hle)⟩

/-- The decision, and the stores before and after the execution of its command. -/
def worlds : Option (InterventionDecision × TransactionWorld × TransactionWorld) := do
  let s ← (← world decided).sessions.head?
  let d ← s.pending.findSome? Write.decision?
  return (d, ← world (created d), ← world (settled d))

end AsOfExample

open AsOfExample AttributionExample in
theorem attribution_asOf_settled : ∃ (id : CommandId) (w w' : TransactionWorld)
    (a a' : CounterfactualAttribution),
    (w.db.getCommandById id).map (·.commandStatus) = some .pending ∧
    (w'.db.getCommandById id).map (·.commandStatus) = some .succeeded ∧
    attributePaymentIntervention (.all w.db) id tDecide = .ok (.inr a) ∧
    attributePaymentIntervention (.all w'.db) id tDecide = .ok (.inr a') ∧
    a.content = a'.content := by
  have hrun : (worlds.map fun r => decide (
      agreesBefore r.2.1.db r.2.2.db ⟨r.1.decisionId⟩ tDecide ∧
      r.2.1.db.attributions = [] ∧ r.2.2.db.attributions = [] ∧
      (r.2.1.db.getCommandById ⟨r.1.decisionId⟩).map (·.commandStatus) = some .pending ∧
      (r.2.2.db.getCommandById ⟨r.1.decisionId⟩).map (·.commandStatus) = some .succeeded ∧
      (firstAttribution r.2.1.db ⟨r.1.decisionId⟩ tDecide).isSome)) = some true := by
    decide +kernel
  obtain ⟨⟨d, w, w'⟩, hworlds, hfacts⟩ := Option.map_eq_some_iff.mp hrun
  obtain ⟨hagree, hnone, hnone', hpending, hsucceeded, hsome⟩ := of_decide_eq_true hfacts
  simp only [worlds, Option.bind_eq_bind, Option.bind_eq_some_iff, Option.pure_def,
    Option.some.injEq, Prod.mk.injEq] at hworlds
  obtain ⟨-, -, s, -, d', -, u, hu, u', hu', rfl, rfl, rfl⟩ := hworlds
  dsimp only at hnone hnone' hpending hsucceeded hsome
  obtain ⟨a, ha⟩ := Option.isSome_iff_exists.mp hsome
  have hok := firstAttribution_some ha
  have hsame : (attributePaymentIntervention (.all u.db) ⟨d'.decisionId⟩ tDecide).map
      (Sum.map (·.content) (·.content)) =
      (attributePaymentIntervention (.all u'.db) ⟨d'.decisionId⟩ tDecide).map
      (Sum.map (·.content) (·.content)) :=
    attribution_asOf hu hu' (agreesBefore_agreeAsOf hagree)
      (by simp [getAttributionByAsOf, hnone]) (by simp [getAttributionByAsOf, hnone'])
  rw [hok] at hsame
  cases hok' : attributePaymentIntervention (.all u'.db) ⟨d'.decisionId⟩ tDecide with
  | error e => rw [hok'] at hsame; cases hsame
  | ok r =>
      rw [hok'] at hsame
      cases r with
      | inl b => cases hsame
      | inr a' => exact ⟨_, u, u', a, a', hpending, hsucceeded, hok, hok', by
          simpa [Except.map] using hsame⟩

end RevenueRecovery
