import RevenueRecovery.Attribution.Service
import RevenueRecovery.Intervention.Specification

/-!
# Stages 6 and 8: the amount of a payment

A decision is sized by the authorization ingested last under the attempt key, from whatever
source of the attempt's pipeline. An attribution of the decision is based on the one ingested
last among those of the attempt's own provider, known when the decision was made. The two
amounts can differ when a synthetic event carries the payment id of another provider.

## Main definitions
* `isOwnAuthorization` : the authorizations an attribution is based on.
* `IngestedLast` : the events a query for the latest one can return.
* `AttributedOn` : every later attribution of a decision is based on an amount.
-/
namespace RevenueRecovery

/-- An authorization of the attempt, recorded by its own provider and known at `t`. -/
def isOwnAuthorization (ref : AttemptRef) (t : Time) (e : PaymentEvent) : Bool :=
  isTriggerFrom ref.sourceSystem ref.paymentAttemptId e && e.ingestedAt ≤ t

/-- The event is among the last ingested of those that satisfy `p`. -/
def IngestedLast (events : List PaymentEvent) (p : PaymentEvent → Bool) (e : PaymentEvent) :
    Prop :=
  (e ∈ events ∧ p e = true) ∧ ∀ f ∈ events, p f = true → f.ingestedAt ≤ e.ingestedAt

/-- However the events go on after the decision, an attribution of it as of its time or
later is based on this amount. -/
def AttributedOn (events : List PaymentEvent) (d : InterventionDecision) (amount : ℤ) : Prop :=
  ∀ late : List PaymentEvent, (∀ e ∈ late, d.decidedAt < e.ingestedAt) →
    ∀ (r : Reads) (commandId : CommandId) (asOf : Time) (a : CounterfactualAttribution),
      d.decidedAt ≤ asOf → (r.db 10).events = events ++ late →
        attributePaymentIntervention r commandId asOf = .ok (.inr a) →
        getDecision (r.db 7) a.decisionId = some d → a.paymentAmountMinorUnits = amount

section Amounts
variable {policy : InterventionPolicy} {upstream locked admission r : Reads} {ref : AttemptRef}
  {t : Time} {d : InterventionDecision} {ctx : DecisionContext} {events late : List PaymentEvent}

theorem IngestedLast.of_latestBy {p : PaymentEvent → Bool} {e : PaymentEvent} {k : ℕ}
    (h : Table.latestBy (·.ingestedAt) (r.rows k (·.events) p) = some e) :
    IngestedLast (r.db k).events p e := by
  obtain ⟨hmem, hmax⟩ := Table.latestBy_spec h
  exact ⟨Reads.mem_rows.mp hmem, fun f hf hp => hmax f (Reads.mem_rows.mpr ⟨hf, hp⟩)⟩

/-- Any of the last events can be the one a query returns. -/
theorem IngestedLast.exists_order {p : PaymentEvent → Bool} {e : PaymentEvent}
    (h : IngestedLast events p e) :
    ∃ order, Table.latestBy (·.ingestedAt) (Table.scan order (events.filter p)) = some e := by
  obtain ⟨order, rest, hscan⟩ :=
    Table.exists_scan_cons (List.mem_filter.mpr ⟨h.1.1, h.1.2⟩)
  refine ⟨order, ?_⟩
  rw [hscan]
  refine Table.latestBy_cons_of_max fun f hf => ?_
  have hmem : f ∈ events.filter p := Table.mem_scan.mp (hscan ▸ List.mem_cons_of_mem _ hf)
  exact h.2 f (List.mem_filter.mp hmem).1 (List.mem_filter.mp hmem).2

/-- Events ingested after the decision are not among those it could know. -/
theorem ingestedLast_append_iff (hlate : ∀ e ∈ late, t < e.ingestedAt) {e : PaymentEvent} :
    IngestedLast (events ++ late) (isOwnAuthorization ref t) e ↔
      IngestedLast events (isOwnAuthorization ref t) e := by
  have hknown : ∀ f ∈ events ++ late, isOwnAuthorization ref t f = true → f ∈ events := by
    intro f hf hown
    rcases List.mem_append.mp hf with hf | hf
    · exact hf
    · simp only [isOwnAuthorization, Bool.and_eq_true, decide_eq_true_eq] at hown
      exact absurd (hlate f hf) (not_lt.mpr hown.2)
  constructor
  · rintro ⟨⟨hmem, hown⟩, hmax⟩
    exact ⟨⟨hknown e hmem hown, hown⟩, fun f hf => hmax f (List.mem_append_left _ hf)⟩
  · rintro ⟨⟨hmem, hown⟩, hmax⟩
    exact ⟨⟨List.mem_append_left _ hmem, hown⟩, fun f hf hp => hmax f (hknown f hf hp) hp⟩

/-! ## What the two stages read -/

/-- A decision to act is sized by an authorization. -/
theorem exists_auth_of_act (hctx : decisionContext upstream ref t = .ok ctx)
    (hd : decideFresh policy upstream locked admission ref t = .ok d)
    (hact : d.decisionType = .act) :
    ∃ auth, getPaymentEventById (upstream.shift 1) ref.paymentAttemptId t = some auth ∧
      ctx.amountMinorUnits = auth.amountMinorUnits ∧ 0 < auth.amountMinorUnits := by
  obtain ⟨key, hkey⟩ := Option.isSome_iff_exists.mp ((decideFresh_coherent hctx hd).1.mpr hact)
  have hpos := ((decideFresh_actsThrough hctx hd).mp ⟨hact, hkey⟩).amount_pos
  rw [DecisionContext.amountMinorUnits, decisionContext_auth hctx] at hpos ⊢
  cases hauth : getPaymentEventById (upstream.shift 1) ref.paymentAttemptId t with
  | none =>
      rw [hauth] at hpos
      exact absurd hpos (lt_irrefl 0)
  | some auth =>
      rw [hauth] at hpos
      exact ⟨auth, rfl, rfl, hpos⟩

/-- The time of a fresh decision is the time it was made for. -/
theorem decideFresh_decidedAt (hd : decideFresh policy upstream locked admission ref t = .ok d) :
    d.decidedAt = t := by
  obtain ⟨ctx, hctx⟩ := decideFresh_context hd
  have htime := (decisionContext_ref hctx).2
  simp only [decideFresh, hctx, bind, Except.bind, pure, Except.pure] at hd
  split at hd <;> cases hd <;> exact htime

/-- The amount an attribution of a decision is based on. -/
theorem attributePaymentIntervention_amount {commandId : CommandId} {asOf : Time}
    {a : CounterfactualAttribution}
    (h : attributePaymentIntervention r commandId asOf = .ok (.inr a))
    (hdecision : getDecision (r.db 7) a.decisionId = some d)
    (hsource : d.sourceSystem = ref.sourceSystem)
    (hattempt : d.paymentAttemptId = ref.paymentAttemptId) (hasOf : d.decidedAt ≤ asOf) :
    a.paymentAmountMinorUnits = ((Table.latestBy (·.ingestedAt) (r.rows 10 (·.events)
      (isOwnAuthorization ref d.decidedAt))).map (·.amountMinorUnits)).getD 0 := by
  obtain ⟨u, hu, -, rfl⟩ := attributePaymentIntervention_spec h
  obtain ⟨-, -, -, hread, -, -, hamount, hconsistent⟩ := readUpstream_eq_ok.mp hu
  have hid : u.decision.decisionId = u.command.decisionId := by
    simpa using List.find?_some hread
  obtain rfl : u.decision = d := by
    have hread' : getDecision (r.db 7) u.decision.decisionId = some u.decision := hid ▸ hread
    exact Option.some.inj (hread'.symm.trans hdecision)
  simp only [Upstream.consistent, Bool.and_eq_true, beq_iff_eq] at hconsistent
  obtain ⟨⟨⟨⟨⟨hcommand, -⟩, -⟩, -⟩, hkey⟩, -⟩ := hconsistent
  rw [show (u.newAttribution _ asOf).paymentAmountMinorUnits = u.paymentAmount from rfl, hamount,
    ← hcommand, ← hkey, hsource, hattempt, min_eq_left hasOf]
  rfl

/-- A store in which a decision has its command, and these events. -/
def commandedStore (attempts : List RegisteredAttempt) (events : List PaymentEvent)
    (d : InterventionDecision) : Database :=
  { events := events
    attempts := attempts
    decisions := [d]
    commands := [newCommand d .fallbackPaymentLink defaultExpiresInSeconds d.decidedAt] }

/-- The commanded decision of a registered attempt is attributed. -/
theorem exists_attribution {row : RegisteredAttempt}
    (hreq : (upstream.db 0).require ref = .ok row) (hsource : d.sourceSystem = ref.sourceSystem)
    (hattempt : d.paymentAttemptId = ref.paymentAttemptId) (r : Reads)
    (hdb : ∀ k, r.db k = commandedStore (upstream.db 0).attempts events d) :
    ∃ a, attributePaymentIntervention r ⟨d.decisionId⟩ d.decidedAt = .ok (.inr a) ∧
      getDecision (r.db 7) a.decisionId = some d := by
  have hkey : (r.db (4 + 5)).requireKey d.sourceSystem d.paymentAttemptId = .ok row := by
    rw [Database.requireKey, hsource, hattempt, AttemptRef.forKey_self, hdb]
    exact hreq
  let u : Upstream :=
    ⟨newCommand d .fallbackPaymentLink defaultExpiresInSeconds d.decidedAt, none, none, d, none,
      (getCanonicalPaymentAmount (r.shift 4) 6 d.sourceSystem d.paymentAttemptId
        (min d.decidedAt d.decidedAt)).getD 0⟩
  have hprediction : none = d.stage5PredictionId.bind (getPrediction (r.db (4 + 4))) := by
    rw [hdb]
    cases d.stage5PredictionId <;> rfl
  have hu : readUpstream (r.shift 4) ⟨d.decisionId⟩ d.decidedAt = .ok u := by
    refine readUpstream_eq_ok.mpr ⟨?_, ?_, ?_, ?_, hprediction, ⟨row, hkey⟩, rfl, ?_⟩
    · simp [Reads.shift, hdb, commandedStore, Database.getCommandById, newCommand, u]
    · simp [Reads.shift, hdb, commandedStore, getLatestExecutionAttempt, u, Table.latestBy]
    · simp [Reads.shift, hdb, commandedStore, getLatestOutcomeObservation, u, Table.latestBy]
    · simp [Reads.shift, hdb, commandedStore, getDecision, newCommand, u]
    · simp [Upstream.consistent, newCommand, u]
  have hnone : getAttributionByAsOf (r.db 0) ⟨d.decisionId⟩ d.decidedAt = none := by
    rw [hdb]
    rfl
  have hlatest : getLatestAttribution (r.db 2) ⟨d.decisionId⟩ = none := by
    rw [hdb]
    rfl
  refine ⟨u.newAttribution 1 d.decidedAt, ?_, ?_⟩
  · simp [attributePaymentIntervention, hnone, hlatest, hu, bind, Except.bind, pure, Except.pure]
  · simp [hdb, commandedStore, getDecision, Upstream.newAttribution, u]

/-- A decision to act is sized by an authorization, and every attribution of it is based on
the same amount exactly when each own authorization ingested last by its time, of which
there is one, has the amount of that authorization. -/
theorem attributedOn_iff (hd : decideFresh policy upstream locked admission ref t = .ok d)
    (hact : d.decisionType = .act) :
    ∃ ctx auth, decisionContext upstream ref t = .ok ctx ∧
      getPaymentEventById (upstream.shift 1) ref.paymentAttemptId t = some auth ∧
      (AttributedOn (upstream.db 1).events d ctx.amountMinorUnits ↔
        (∃ e ∈ (upstream.db 1).events, isOwnAuthorization ref t e = true) ∧
        ∀ e, IngestedLast (upstream.db 1).events (isOwnAuthorization ref t) e →
          e.amountMinorUnits = auth.amountMinorUnits) := by
  obtain ⟨ctx, hctx⟩ := decideFresh_context hd
  obtain ⟨auth, hauth, hamount, hpos⟩ := exists_auth_of_act hctx hd hact
  obtain ⟨hsource, hattempt⟩ := decideFresh_ref hctx hd
  obtain rfl := decideFresh_decidedAt hd
  refine ⟨ctx, auth, hctx, hauth, ?_⟩
  rw [hamount]
  constructor
  · intro hbased
    obtain ⟨row, hreq⟩ := (decisionContext_spec hctx).1
    -- an attribution whose query for the amount scans the events in a given order
    have hread : ∀ order : ℕ → ℕ, auth.amountMinorUnits = ((Table.latestBy (·.ingestedAt)
        (Table.scan order ((upstream.db 1).events.filter
          (isOwnAuthorization ref d.decidedAt)))).map (·.amountMinorUnits)).getD 0 := by
      intro order
      let r : Reads :=
        { db := fun _ => commandedStore (upstream.db 0).attempts (upstream.db 1).events d
          order := fun _ => order }
      obtain ⟨a, ha, hdecision⟩ := exists_attribution hreq hsource hattempt r fun _ => rfl
      rw [← hbased [] (by simp) r _ _ a le_rfl (List.append_nil _).symm ha hdecision,
        attributePaymentIntervention_amount ha hdecision hsource hattempt le_rfl]
      rfl
    refine ⟨?_, fun e he => ?_⟩
    · by_contra hnone
      have hnil : (upstream.db 1).events.filter (isOwnAuthorization ref d.decidedAt) = [] := by
        refine List.filter_eq_nil_iff.mpr fun e he hown => hnone ⟨e, he, hown⟩
      have hzero := hread id
      rw [hnil] at hzero
      exact absurd hzero (ne_of_gt hpos)
    · obtain ⟨order, horder⟩ := he.exists_order
      have heq := hread order
      rw [horder] at heq
      exact heq.symm
  · rintro ⟨⟨e, he, hown⟩, hsame⟩ late hlate r commandId asOf a hasOf hevents ha hdecision
    rw [attributePaymentIntervention_amount ha hdecision hsource hattempt hasOf]
    cases hlatest : Table.latestBy (·.ingestedAt) (r.rows 10 (·.events)
        (isOwnAuthorization ref d.decidedAt)) with
    | none =>
        have hmem : e ∈ r.rows 10 (·.events) (isOwnAuthorization ref d.decidedAt) := by
          rw [Reads.mem_rows, hevents]
          exact ⟨List.mem_append_left _ he, hown⟩
        rw [Table.latestBy_eq_none.mp hlatest] at hmem
        cases hmem
    | some f =>
        have hlast := IngestedLast.of_latestBy hlatest
        rw [hevents, ingestedLast_append_iff hlate] at hlast
        exact hsame f hlast

end Amounts

/-! ### A synthetic event of the same payment id -/

namespace AmountExample
open FingerprintExample

/-- A larger authorization of the payment id, ingested later from the synthetic source. -/
def synthetic : PaymentEvent :=
  { authorization with
    eventId := 1, sourceSystem := syntheticSourceSystem, sourceEventId := "s"
    amountMinorUnits := 20000, ingestedAt := 5 }

def shared : Database := { before with events := [authorization, synthetic] }

/-- The amount a decision on one store is sized by. -/
def sizedBy (db : Database) : Option ℤ :=
  (decisionContext (.all db) ref 10).toOption.map (·.amountMinorUnits)

/-- The amount of an attribution made with the decision's own events. -/
def attributedAmount (db : Database) : Option ℤ :=
  (fresh db).toOption.bind fun d =>
    (attributePaymentIntervention (.all (commandedStore db.attempts db.events d)) ⟨d.decisionId⟩
      10).toOption.bind fun res => res.getRight?.map (·.paymentAmountMinorUnits)

end AmountExample

open FingerprintExample AmountExample in
/-- The authorized and predicted payment is attributed on the amount it was decided on. -/
theorem attributedOn_before : ∃ d ctx, fresh before = .ok d ∧ d.decisionType = .act ∧
    decisionContext (.all before) ref 10 = .ok ctx ∧
    AttributedOn before.events d ctx.amountMinorUnits := by
  have hfacts : (fresh before).toOption.map (·.decisionType) = some .act := by decide +kernel
  cases hd : fresh before with
  | error e => simp [hd, Except.toOption] at hfacts
  | ok d =>
      have hact : d.decisionType = .act := by simpa [hd, Except.toOption] using hfacts
      obtain ⟨ctx, auth, hctx, hauth, hiff⟩ := attributedOn_iff hd hact
      have hread : getPaymentEventById ((Reads.all before).shift 1) ref.paymentAttemptId 10 =
          some authorization := by decide +kernel
      obtain rfl := Option.some.inj (hauth.symm.trans hread)
      refine ⟨d, ctx, rfl, hact, hctx, hiff.mpr ⟨⟨authorization, List.mem_singleton_self _,
        by decide +kernel⟩, fun e he => ?_⟩⟩
      rw [List.mem_singleton.mp he.1.1]

open FingerprintExample AmountExample in
/-- A decision sized by a synthetic event of 20000 is attributed on the authorization of
10000. -/
theorem attributed_on_other_amount : ¬ ∀ (policy : InterventionPolicy)
    (upstream locked admission : Reads) (ref : AttemptRef) (t : Time) (d : InterventionDecision)
    (ctx : DecisionContext), decideFresh policy upstream locked admission ref t = .ok d →
      d.decisionType = .act → decisionContext upstream ref t = .ok ctx →
        AttributedOn (upstream.db 1).events d ctx.amountMinorUnits := by
  intro hall
  have hfacts : (fresh shared).toOption.map (·.decisionType) = some .act := by decide +kernel
  have hsized : sizedBy shared = some 20000 := by decide +kernel
  have hbased : attributedAmount shared = some 10000 := by decide +kernel
  cases hd : fresh shared with
  | error e => simp [hd, Except.toOption] at hfacts
  | ok d =>
      cases hctx : decisionContext (.all shared) ref 10 with
      | error e => simp [sizedBy, hctx, Except.toOption] at hsized
      | ok ctx =>
          have hact : d.decisionType = .act := by simpa [hd, Except.toOption] using hfacts
          have hamount : ctx.amountMinorUnits = 20000 := by
            simpa [sizedBy, hctx, Except.toOption] using hsized
          have hat : d.decidedAt = 10 := decideFresh_decidedAt hd
          obtain ⟨row, hreq⟩ := (decisionContext_spec hctx).1
          obtain ⟨hsource, hattempt⟩ := decideFresh_ref hctx hd
          obtain ⟨a, ha, hdecision⟩ := exists_attribution hreq hsource hattempt
            (.all (commandedStore shared.attempts shared.events d)) fun _ => rfl
          have hother : a.paymentAmountMinorUnits = 10000 := by
            rw [hat] at ha
            simpa [attributedAmount, hd, ha, Except.toOption] using hbased
          have hsame := hall _ _ _ _ _ _ d ctx hd hact hctx [] (by simp) _ _ _ a le_rfl
            (List.append_nil _).symm ha hdecision
          rw [hother, hamount] at hsame
          exact absurd hsame (by decide)

end RevenueRecovery
