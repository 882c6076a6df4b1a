import RevenueRecovery.Attribution.AsOf
import RevenueRecovery.Execution.ObservationLog

/-!
# Stage 8: attributions after a replayed observation

An attribution uses the stored observation of the highest version among those as of its
time. An observation replayed as of an earlier time gets the highest version, so it takes
the place of the one used before, and the attribution keeps its content exactly when the
replay finds what that one recorded (`attribution_replay_iff`).

## Main definitions
* `afterObserve` : the store after one observing call.
* `ObservationFacts` : what an attribution takes from an observation.
* `CounterfactualAttribution.facts` : an attribution up to the rows' own ids.
-/
namespace RevenueRecovery

open Transaction

/-- The store after an observing call whose statements all read it; a call that raises leaves
it as it is. -/
def afterObserve (r : Reads) (db : Database) (id : CommandId) (asOf : Time) : Database :=
  match observe r id asOf with
  | .ok o => if db.violates (.insertObservation o) then db else db.apply (.insertObservation o)
  | .error _ => db

/-- What an attribution takes from an observation. -/
structure ObservationFacts where
  paymentOutcome : PaymentOutcome
  terminalEventId : Option ℕ
  terminalEventType : Option String
  terminalEventTimestamp : Option Time
  conflictDetected : Bool
  conflictingEvents : List QuotedEvent
deriving DecidableEq, Repr

def PaymentOutcomeObservation.facts (o : PaymentOutcomeObservation) : ObservationFacts :=
  { paymentOutcome := o.paymentOutcome
    terminalEventId := o.terminalEventId
    terminalEventType := o.terminalEventType
    terminalEventTimestamp := o.terminalEventTimestamp
    conflictDetected := o.observationAuditPayload.conflictDetected
    conflictingEvents := o.observationAuditPayload.conflictingEvents }

/-- The facts of an attempt with these terminal events, in canonical order. -/
def terminalFacts (events : List PaymentEvent) : ObservationFacts :=
  { paymentOutcome := events.head?.elim .unknownInFlight eventOutcome
    terminalEventId := events.head?.map (·.eventId)
    terminalEventType := events.head?.map (·.eventType)
    terminalEventTimestamp := events.head?.map (·.timestamp)
    conflictDetected := (observationAuditPayload events).conflictDetected
    conflictingEvents := (observationAuditPayload events).conflictingEvents }

/-- The attribution without its own id and version and the id of the observation it used. -/
def CounterfactualAttribution.facts (a : CounterfactualAttribution) : CounterfactualAttribution :=
  { a.content with
    attributionAuditPayload := { a.attributionAuditPayload with observationId := none } }

section Facts
variable {u : Upstream} {o o' : PaymentOutcomeObservation}

theorem newObservation_facts (r : Reads) (cmd : InterventionCommand) (asOf : Time) :
    (newObservation r cmd asOf).facts = terminalFacts
      (getCanonicalTerminalEvents r 0 cmd.sourceSystem cmd.paymentAttemptId asOf) := rfl

/-- An attribution is determined by the facts of its observation, and determines them. -/
theorem newAttribution_facts (hobs : u.observation = some o) (n n' : ℕ) (asOf : Time) :
    (u.newAttribution n asOf).facts =
      (Upstream.newAttribution { u with observation := some o' } n' asOf).facts ↔
        o'.facts = o.facts := by
  constructor
  · intro h
    have hpayload := congrArg CounterfactualAttribution.attributionAuditPayload h
    have houtcome := congrArg CounterfactualAttribution.observedPaymentOutcome h
    simp only [CounterfactualAttribution.facts, CounterfactualAttribution.content,
      Upstream.newAttribution, Upstream.auditPayload, Upstream.observedOutcome, hobs,
      Option.elim_some, Option.bind_some, Option.any_some, AttributionAuditPayload.mk.injEq]
      at hpayload houtcome
    simp only [PaymentOutcomeObservation.facts, ObservationFacts.mk.injEq]
    obtain ⟨-, -, -, -, -, -, hid, htype, hconflict, hevents, -, -, -, -, -, -, hts⟩ := hpayload
    exact ⟨houtcome.symm, hid.symm, htype.symm, hts.symm, hconflict.symm, hevents.symm⟩
  · intro h
    simp only [PaymentOutcomeObservation.facts, ObservationFacts.mk.injEq] at h
    obtain ⟨houtcome, hid, htype, hts, hconflict, hevents⟩ := h
    have htreatment : u.treatmentStatus =
        Upstream.treatmentStatus { u with observation := some o' } := by
      simp only [Upstream.treatmentStatus, Upstream.outcomeBefore, hobs, Option.bind_some, hts]
    have htiming : u.timingDeltaSeconds =
        Upstream.timingDeltaSeconds { u with observation := some o' } := by
      simp only [Upstream.timingDeltaSeconds, hobs, Option.bind_some, hts]
    have hobserved : u.observedOutcome =
        Upstream.observedOutcome { u with observation := some o' } := by
      simp only [Upstream.observedOutcome, hobs, Option.elim_some, houtcome]
    have hresult : u.result = Upstream.result { u with observation := some o' } := by
      simp only [Upstream.result, htreatment, htiming, hobserved]
      rfl
    simp only [CounterfactualAttribution.facts, CounterfactualAttribution.content,
      Upstream.newAttribution, Upstream.auditPayload, ← hresult, ← htreatment, ← htiming,
      ← hobserved, hobs, Option.bind_some, Option.any_some, Option.elim_some, hid, htype, hts,
      hconflict, hevents]
    rfl

end Facts

/-! ## The replay -/

section Replay
variable {db : Database} {id : CommandId} {asOf t₁ t₂ : Time} {order order' : ℕ → ℕ → ℕ}
  {episodeOrder episodeOrder' : EpisodeId → ℕ}

/-- The observation of a stored and registered command, when all statements read one store. -/
theorem observe_eq_ok {cmd : InterventionCommand} {row : RegisteredAttempt}
    (hget : db.getCommandById id = some cmd)
    (hreq : db.requireKey cmd.sourceSystem cmd.paymentAttemptId = .ok row) :
    observe ⟨fun _ => db, order, episodeOrder⟩ id asOf = .ok (newObservation
      ((Reads.mk (fun _ => db) order episodeOrder).shift 2) cmd asOf) := by
  simp [observe, hget, hreq, bind, Except.bind, pure, Except.pure]

/-- A stored observation by `asOf` is outrun by a later version. -/
theorem getLatestOutcomeObservation_apply {o : PaymentOutcomeObservation}
    (hid : o.commandId = id) (hasOf : o.asOfTimestamp ≤ asOf)
    (hlast : ∀ o' ∈ observationsOf db id, o'.observationVersion < o.observationVersion) :
    getLatestOutcomeObservation (db.apply (.insertObservation o)) id asOf = some o := by
  have hrows : ((db.apply (.insertObservation o)).observations.filter fun x =>
      x.commandId = id ∧ x.asOfTimestamp ≤ asOf) = (db.observations.filter fun x =>
      x.commandId = id ∧ x.asOfTimestamp ≤ asOf) ++ [o] := by
    simp [Database.apply, List.filter_append, hid, hasOf]
  rw [getLatestOutcomeObservation, hrows]
  refine Table.latestBy_append_max fun x hx => hlast x ?_
  simp only [List.mem_filter, decide_eq_true_eq] at hx
  exact mem_observationsOf.mpr ⟨hx.1, hx.2.1⟩

variable {model : FailurePredictionModel} {policy : InterventionPolicy}

/-- In a reachable store whose command is observed as of `t₂`, let the command be observed as
of an earlier `t₁` and then attributed for the first time as of `asOf`, no earlier than `t₂`.
The attribution has the content it would have had without the replay exactly when the replay
raises because `t₁` is taken, or the observation of the highest version by `asOf` records
what the events ingested by `t₁` say. -/
theorem attribution_replay_iff {as : List TransactionAction} {w : TransactionWorld}
    (h : transactionRun model policy as = some w) {o₂ : PaymentOutcomeObservation}
    (ho₂ : o₂ ∈ observationsOf w.db id) (ht₂ : o₂.asOfTimestamp = t₂) (hlt : t₁ < t₂)
    (hle : t₂ ≤ asOf) {a : CounterfactualAttribution}
    (ha : attributePaymentIntervention ⟨fun _ => w.db, order, episodeOrder⟩ id asOf =
      .ok (.inr a)) :
    (∃ a', attributePaymentIntervention ⟨fun _ => afterObserve
        ⟨fun _ => w.db, order', episodeOrder'⟩ w.db id t₁, order, episodeOrder⟩ id asOf =
          .ok (.inr a') ∧ a'.facts = a.facts) ↔
      (∃ o ∈ observationsOf w.db id, o.asOfTimestamp = t₁) ∨
        ∃ cmd o, w.db.getCommandById id = some cmd ∧
          getLatestOutcomeObservation w.db id asOf = some o ∧
          o.facts = terminalFacts (getCanonicalTerminalEvents
            ⟨fun _ => w.db, order', episodeOrder'⟩ 2 cmd.sourceSystem cmd.paymentAttemptId t₁) := by
  have hu := (transactionRun_met h).store
  have hrows := transactionRun_namesCommand h
  obtain ⟨u, hup, hfirst, rfl⟩ := attributePaymentIntervention_spec ha
  obtain ⟨hget, hattempt, hobs, hdec, hpred, ⟨row, hreq⟩, hamount, hcons⟩ :=
    readUpstream_eq_ok.mp hup
  have hcmd : w.db.getCommandById id = some u.command := hget
  have hregistered : w.db.requireKey u.command.sourceSystem u.command.paymentAttemptId =
    .ok row := hreq
  have hcid : u.command.commandId = id := by simpa using List.find?_some hcmd
  -- the observation used without the replay
  obtain ⟨o, ho⟩ : ∃ o, getLatestOutcomeObservation w.db id asOf = some o := by
    cases hnone : getLatestOutcomeObservation w.db id asOf with
    | some o => exact ⟨o, rfl⟩
    | none =>
        obtain ⟨hmem, hid⟩ := mem_observationsOf.mp ho₂
        have hnil := Table.latestBy_eq_none.mp hnone
        rw [List.filter_eq_nil_iff] at hnil
        exact absurd (decide_eq_true ⟨hid, ht₂ ▸ hle⟩) (hnil o₂ hmem)
  have huobs : u.observation = some o := hobs.trans ho
  -- the replayed observation
  have hreplay : observe ⟨fun _ => w.db, order', episodeOrder'⟩ id t₁ =
      .ok (newObservation ((Reads.mk (fun _ => w.db) order' episodeOrder').shift 2) u.command t₁) :=
    observe_eq_ok hcmd hregistered
  obtain ⟨hoid, hoasOf, hoself, hversion⟩ := observe_commandId hreplay
  have hfacts := newObservation_facts
    ((Reads.mk (fun _ => w.db) order' episodeOrder').shift 2) u.command t₁
  generalize hnew : newObservation ((Reads.mk (fun _ => w.db) order' episodeOrder').shift 2)
    u.command t₁ = o₁ at hreplay hoid hoasOf hoself hversion hfacts
  have hlater : ∀ o' ∈ observationsOf w.db id, o'.observationVersion < o₁.observationVersion := by
    intro o' ho'
    rw [hversion]
    exact Nat.lt_succ_of_le (Table.le_maxOf ho')
  have htaken : w.db.violates (.insertObservation o₁) = true ↔
      ∃ o ∈ observationsOf w.db id, o.asOfTimestamp = t₁ := by
    rw [violates_insertObservation hrows (by rw [hoself, hoid]), hoid, hoasOf]
    refine exists_congr fun o' => and_congr_right fun ho' => ?_
    exact or_iff_right (Nat.ne_of_lt (hlater o' ho'))
  by_cases hviolates : w.db.violates (.insertObservation o₁) = true
  · have hafter : afterObserve ⟨fun _ => w.db, order', episodeOrder'⟩ w.db id t₁ = w.db := by
      simp [afterObserve, hreplay, hviolates]
    rw [hafter]
    exact ⟨fun _ => .inl (htaken.mp hviolates), fun _ => ⟨_, ha, rfl⟩⟩
  · have hafter : afterObserve ⟨fun _ => w.db, order', episodeOrder'⟩ w.db id t₁ =
        w.db.apply (.insertObservation o₁) := by
      simp [afterObserve, hreplay, hviolates]
    have hu' : Unique (w.db.apply (.insertObservation o₁)) :=
      hu.apply (by simpa using hviolates)
    have hrows' : Justified namesCommand (w.db.apply (.insertObservation o₁)) := by
      have hws : ∀ x ∈ [Write.insertObservation o₁], namesCommand.holds
          (List.foldl Database.apply w.db [.insertObservation o₁]) x := by
        intro x hx
        obtain rfl := List.mem_singleton.mp hx
        refine ⟨by rw [hoself, hoid], u.command, List.mem_of_find?_eq_some hcmd, ?_, ?_, ?_⟩
        · rw [hcid, hoid]
        · rw [← hnew]; rfl
        · rw [← hnew]; rfl
      exact hrows.foldl hws
    have hup' : readUpstream ⟨fun _ => w.db.apply (.insertObservation o₁),
        fun i => order (4 + i), episodeOrder⟩ id asOf =
        .ok { u with observation := some o₁ } := by
      refine readUpstream_eq_ok.mpr ⟨hget, hattempt, ?_, hdec, hpred, ⟨row, hreq⟩, hamount, ?_⟩
      · exact (getLatestOutcomeObservation_apply hoid
          (hoasOf.le.trans (hlt.le.trans hle)) hlater).symm
      · have hsource : o₁.sourceSystem = u.command.sourceSystem := by rw [← hnew]; rfl
        have hkey : o₁.paymentAttemptId = u.command.paymentAttemptId := by rw [← hnew]; rfl
        simp only [Upstream.consistent, huobs, Option.all_some, Bool.and_eq_true, beq_iff_eq]
          at hcons
        simp [Upstream.consistent, hcons, hsource, hkey]
    have hfirst' : getAttributionByAsOf (w.db.apply (.insertObservation o₁)) id asOf = none :=
      hfirst
    rw [hafter, attributePaymentIntervention_first hrows' hu' hfirst', hup']
    have hnot : ¬ ∃ o ∈ observationsOf w.db id, o.asOfTimestamp = t₁ :=
      fun hex => hviolates (htaken.mpr hex)
    rw [or_iff_right hnot]
    simp only [Except.map, Except.ok.injEq, Sum.inr.injEq, exists_eq_left', hcmd, ho,
      Option.some.injEq, exists_and_left]
    rw [eq_comm, newAttribution_facts huobs, hfacts]
    exact eq_comm

end Replay

namespace ReplayExample
open AsOfExample AttributionExample

/-- The store of the executed, captured and observed command. -/
def observedWorld : Option (InterventionDecision × TransactionWorld) := do
  let s ← (← world decided).sessions.head?
  let d ← s.pending.findSome? Write.decision?
  return (d, ← world (settled d))

theorem observedWorld_run {d : InterventionDecision} {w : TransactionWorld}
    (h : observedWorld = some (d, w)) : world (settled d) = some w := by
  simp only [observedWorld, Option.bind_eq_bind, Option.bind_eq_some_iff, Option.pure_def,
    Option.some.injEq, Prod.mk.injEq] at h
  obtain ⟨-, -, -, -, d', -, w', hw, rfl, rfl⟩ := h
  exact hw

/-- The time as of which the capture is observed and attributed. -/
def settledAt : Time := tDecide + Time.minutes 1

/-- A replay at a time after the capture finds what the observation has recorded. -/
def facts (r : InterventionDecision × TransactionWorld) : Bool :=
  (firstAttribution r.2.db ⟨r.1.decisionId⟩ settledAt).any (·.attributionStatus == .attributed) &&
    (observationsOf r.2.db ⟨r.1.decisionId⟩).any (·.asOfTimestamp == settledAt) &&
    (r.2.db.getCommandById ⟨r.1.decisionId⟩).any fun cmd =>
      (getLatestOutcomeObservation r.2.db ⟨r.1.decisionId⟩ settledAt).any fun o =>
        o.facts == terminalFacts (getCanonicalTerminalEvents (.all r.2.db) 2 cmd.sourceSystem
          cmd.paymentAttemptId (tDecide + Time.seconds 50))

end ReplayExample

open AsOfExample AttributionExample ReplayExample in
theorem attribution_replay_iff_settled : ∃ (id : CommandId) (w : TransactionWorld)
    (a a' : CounterfactualAttribution), a.attributionStatus = .attributed ∧
    attributePaymentIntervention (.all w.db) id settledAt = .ok (.inr a) ∧
    attributePaymentIntervention (.all (afterObserve (.all w.db) w.db id
      (tDecide + Time.seconds 50))) id settledAt = .ok (.inr a') ∧ a'.facts = a.facts := by
  have hrun : observedWorld.map facts = some true := by decide +kernel
  obtain ⟨⟨d, w⟩, hw, hfacts⟩ := Option.map_eq_some_iff.mp hrun
  simp only [facts, Bool.and_eq_true, Option.any_eq_true, List.any_eq_true, beq_iff_eq] at hfacts
  obtain ⟨⟨⟨a, ha, hattributed⟩, o₂, ho₂, ht₂⟩, cmd, hcmd, o, ho, hsame⟩ := hfacts
  have hok := firstAttribution_some ha
  have hcond := (attribution_replay_iff (observedWorld_run hw) ho₂ ht₂
    (show tDecide + Time.seconds 50 < settledAt by decide) le_rfl hok).mpr
    (.inr ⟨cmd, o, hcmd, ho, hsame⟩)
  obtain ⟨a', ha', hfacts'⟩ := hcond
  exact ⟨_, w, a, a', hattributed, hok, ha', hfacts'⟩

open AsOfExample AttributionExample ReplayExample in
/-- A command observed as captured is attributed; after an observation replayed as of a time
before the capture, it is not. -/
theorem attribution_replay_displaced : ∃ (as : List TransactionAction) (w : TransactionWorld)
    (id : CommandId) (a a' : CounterfactualAttribution), world as = some w ∧
    (∃ o ∈ observationsOf w.db id, o.asOfTimestamp = settledAt) ∧
    attributePaymentIntervention (.all w.db) id settledAt = .ok (.inr a) ∧
    attributePaymentIntervention (.all (afterObserve (.all w.db) w.db id
      (tDecide + Time.seconds 10))) id settledAt = .ok (.inr a') ∧
    a.attributionStatus = .attributed ∧ a'.attributionStatus = .unresolvedInFlight := by
  have hrun : (observedWorld.bind fun r =>
      (firstAttribution r.2.db ⟨r.1.decisionId⟩ settledAt).bind fun a =>
      (firstAttribution (afterObserve (.all r.2.db) r.2.db ⟨r.1.decisionId⟩
        (tDecide + Time.seconds 10)) ⟨r.1.decisionId⟩ settledAt).map fun a' =>
      decide ((∃ o ∈ observationsOf r.2.db ⟨r.1.decisionId⟩, o.asOfTimestamp = settledAt) ∧
        a.attributionStatus = .attributed ∧ a'.attributionStatus = .unresolvedInFlight)) =
      some true := by decide +kernel
  obtain ⟨⟨d, w⟩, hw, hrun⟩ := Option.bind_eq_some_iff.mp hrun
  obtain ⟨a, ha, hrun⟩ := Option.bind_eq_some_iff.mp hrun
  obtain ⟨a', ha', hfacts⟩ := Option.map_eq_some_iff.mp hrun
  obtain ⟨hobserved, hattributed, hflight⟩ := of_decide_eq_true hfacts
  exact ⟨_, w, _, a, a', observedWorld_run hw, hobserved, firstAttribution_some ha,
    firstAttribution_some ha', hattributed, hflight⟩

end RevenueRecovery
