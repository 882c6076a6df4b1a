import RevenueRecovery.Attribution.Soundness
import RevenueRecovery.Execution.ObservationLog

/-!
# Stage 7: the first terminal outcome is final

An observation takes its outcome from the first terminal event of the attempt in ingestion
order among those ingested by its `asOf`. When nothing ingested by the `asOf` of an
observation becomes known after it, later observations find the same event first.

## Main definitions
* `ObservationRead`, `observationReads` : what the observations of a run read.
* `LateEventsLater` : events unknown to an observation were ingested after its `asOf`.
* `TiesAgree` : events ingested at the same time are returned in the same order.
* `FirstTerminal` : the first terminal event of an attempt.
-/
namespace RevenueRecovery

open Transaction

/-- An observation, the events known to its read, and the terminal ones in canonical order. -/
structure ObservationRead where
  row : PaymentOutcomeObservation
  known : List PaymentEvent
  terminal : List PaymentEvent
deriving DecidableEq

section Reads
variable (model : FailurePredictionModel) (policy : InterventionPolicy)

/-- The observation a step makes. -/
def observationRead? (w : TransactionWorld) : TransactionAction → Option ObservationRead
  | .advance i input =>
      match w.sessions[i]? with
      | none => none
      | some s =>
          match s.proc with
          | .calling (.observe id asOf) =>
              let r := input.reads ((transactionProgram model policy).reads w.db s)
              (observe r id asOf).toOption.map fun o =>
                ⟨o, (r.db 2).events,
                  getCanonicalTerminalEvents r 2 o.sourceSystem o.paymentAttemptId asOf⟩
          | _ => none
  | _ => none

/-- The observations a run makes, whether their transactions commit or not. -/
def observationReads (as : List TransactionAction) : List ObservationRead :=
  Run.collect (transactionProgram model policy).worldStep (observationRead? model policy)
    ⟨{}, [], []⟩ as

/-- Every terminal event that a stored observation did not know when it was made was ingested
after its `asOf`. -/
def LateEventsLater (as : List TransactionAction) (db : Database) : Prop :=
  ∀ r ∈ observationReads model policy as, r.row ∈ db.observations → ∀ e ∈ db.events,
    isTerminalFrom r.row.sourceSystem r.row.paymentAttemptId e = true → e ∉ r.known →
    r.row.asOfTimestamp < e.ingestedAt

/-- No observation returns two events ingested at the same time in another order than another
observation does. -/
def TiesAgree (as : List TransactionAction) : Prop :=
  ∀ r ∈ observationReads model policy as, ∀ r' ∈ observationReads model policy as,
    ∀ e ∈ r.terminal, ∀ e' ∈ r.terminal, e ≠ e' → e.ingestedAt = e'.ingestedAt →
      [e, e'].Sublist r.terminal → ¬ [e', e].Sublist r'.terminal

instance (as : List TransactionAction) (db : Database) :
    Decidable (LateEventsLater model policy as db) :=
  inferInstanceAs (Decidable (∀ r ∈ observationReads model policy as, _ → _))

instance (as : List TransactionAction) : Decidable (TiesAgree model policy as) :=
  inferInstanceAs (Decidable (∀ r ∈ observationReads model policy as, _))

/-- The first terminal event of the attempt: no other one was ingested earlier, and none
ingested at the same time is returned before it. -/
def FirstTerminal (as : List TransactionAction) (db : Database)
    (sourceSystem paymentAttemptId : String) (e : PaymentEvent) : Prop :=
  e ∈ db.events ∧ isTerminalFrom sourceSystem paymentAttemptId e = true ∧
    ∀ e' ∈ db.events, isTerminalFrom sourceSystem paymentAttemptId e' = true → e' ≠ e →
      e.ingestedAt ≤ e'.ingestedAt ∧ (e.ingestedAt = e'.ingestedAt →
        ∀ r ∈ observationReads model policy as, ¬ [e', e].Sublist r.terminal)

end Reads

section Finality
variable {model : FailurePredictionModel} {policy : InterventionPolicy}
  {as : List TransactionAction} {w : TransactionWorld} {r r' : ObservationRead}

theorem transactionProgram_eventsArrive (model : FailurePredictionModel)
    (policy : InterventionPolicy) : EventsArrive (transactionProgram model policy) where
  apply := rfl
  write {db s input ws next} h := by
    generalize ho : Outcome.write ws next = o at h
    cases transactionStepped h with
    | requested => cases hr : input.request <;> rw [hr] at ho <;> cases ho <;> rfl
    | returned => cases ho; rfl
    | raised => cases ho
    | @called p o' hproc hp hcall =>
        cases o' with
        | write vs next' =>
            obtain ⟨rfl, -⟩ := Outcome.write.inj ho
            refine List.filterMap_eq_nil_iff.mpr fun w hw => ?_
            have horigin := hcall.origin hw
            cases w with
            | insertEvent e => exact horigin.elim
            | _ => rfl
        | _ => cases ho

/-- An observation that is made, is made by an observing call. -/
theorem observationRead?_spec {u : TransactionWorld} {a : TransactionAction}
    (h : observationRead? model policy u a = some r) :
    ∃ i input s id, a = .advance i input ∧ u.sessions[i]? = some s ∧
      s.proc = .calling (.observe id r.row.asOfTimestamp) ∧
      observe (input.reads ((transactionProgram model policy).reads u.db s)) id
        r.row.asOfTimestamp = .ok r.row ∧
      r.known = ((transactionProgram model policy).reads u.db s 2).events ∧
      r.terminal = getCanonicalTerminalEvents
        (input.reads ((transactionProgram model policy).reads u.db s)) 2 r.row.sourceSystem
        r.row.paymentAttemptId r.row.asOfTimestamp := by
  cases a with
  | advance i input =>
      simp only [observationRead?] at h
      split at h
      · cases h
      · rename_i s hs
        split at h
        · rename_i id asOf hproc
          obtain ⟨o, hobs, rfl⟩ := Option.map_eq_some_iff.mp h
          have hok : observe (input.reads ((transactionProgram model policy).reads u.db s)) id
              asOf = .ok o := by
            cases hres : observe (input.reads ((transactionProgram model policy).reads u.db s))
              id asOf with
            | error e => simp [hres, Except.toOption] at hobs
            | ok o' => simpa [hres, Except.toOption] using hobs
          obtain ⟨cmd, row, -, -, rfl⟩ := observe_spec hok
          exact ⟨i, input, s, id, rfl, hs, hproc, hok, rfl, rfl⟩
        · cases h
  | _ => cases h

/-- What an observation of the run rests on: it was made from its terminal events, which are
the ones it knew of the attempt ingested by its `asOf`, earliest first. -/
structure ReadFrom (db : Database) (r : ObservationRead) : Prop where
  known : r.known ⊆ db.events
  mem : ∀ e, e ∈ r.terminal ↔ e ∈ r.known ∧
    isTerminalFrom r.row.sourceSystem r.row.paymentAttemptId e = true ∧
    e.ingestedAt ≤ r.row.asOfTimestamp
  head : ∀ e es, r.terminal = e :: es → ∀ e' ∈ r.terminal, e.ingestedAt ≤ e'.ingestedAt
  outcome : r.row.paymentOutcome = r.terminal.head?.elim .unknownInFlight eventOutcome
  terminalEventId : r.row.terminalEventId = r.terminal.head?.map (·.eventId)

theorem readFrom (h : transactionRun model policy as = some w)
    (hr : r ∈ observationReads model policy as) : ReadFrom w.db r := by
  obtain ⟨as₁, a, as₂, u, rfl, hu, hread⟩ := Run.mem_collect.mp hr
  obtain ⟨i, input, s, id, rfl, hs, hproc, hobs, hknown, hterminal⟩ := observationRead?_spec hread
  obtain ⟨cmd, row, hget, -, ho⟩ := observe_spec hobs
  have hsession := ((transactionProgram_eventsArrive model policy).invariant.exec_true (.empty trivial) hu).session s
    (List.mem_of_getElem? hs)
  have hrest : Keeps u.db w.db := by
    rw [transactionRun, Run.exec_append_of_eq hu] at h
    exact exec_keeps rfl h
  have hmem : ∀ e, e ∈ r.terminal ↔ e ∈ r.known ∧
      isTerminalFrom r.row.sourceSystem r.row.paymentAttemptId e = true ∧
      e.ingestedAt ≤ r.row.asOfTimestamp := by
    intro e
    rw [hterminal, hknown]
    exact mem_getCanonicalTerminalEvents
  have hlist : r.terminal = getCanonicalTerminalEvents ((input.reads ((transactionProgram model
      policy).reads u.db s)).shift 2) 0 cmd.sourceSystem cmd.paymentAttemptId
      r.row.asOfTimestamp := by
    have hsource : r.row.sourceSystem = cmd.sourceSystem := by rw [ho]; rfl
    have hkey : r.row.paymentAttemptId = cmd.paymentAttemptId := by rw [ho]; rfl
    rw [hterminal, hsource, hkey]
    rfl
  refine ⟨fun e he => ?_, hmem, fun e es heq e' he' => ?_, ?_, ?_⟩
  · rw [hknown] at he
    exact hrest.events ((hsession.reads rfl 2).subset he)
  · obtain ⟨hk, hterm, hasOf⟩ := (hmem e').mp he'
    rw [hknown] at hk
    exact getCanonicalTerminalEvents_head (hterminal ▸ heq) e' hk hterm hasOf
  · rw [ho, hlist]; rfl
  · rw [ho, hlist]; rfl

/-- An event that an observation found first is found first by every observation of the
attempt as of a later time. -/
theorem terminal_head (h : transactionRun model policy as = some w)
    (hlate : LateEventsLater model policy as w.db) (hties : TiesAgree model policy as)
    (hr : r ∈ observationReads model policy as) (hr' : r' ∈ observationReads model policy as)
    (hrow : r.row ∈ w.db.observations) (hrow' : r'.row ∈ w.db.observations)
    (hsource : r.row.sourceSystem = r'.row.sourceSystem)
    (hkey : r.row.paymentAttemptId = r'.row.paymentAttemptId)
    (hle : r.row.asOfTimestamp ≤ r'.row.asOfTimestamp) {e : PaymentEvent}
    {es : List PaymentEvent} (he : r.terminal = e :: es) : r'.terminal.head? = some e := by
  have hread := readFrom h hr
  have hread' := readFrom h hr'
  -- an event of the attempt ingested by the `asOf` of an observation is known to it
  have hknown : ∀ {q : ObservationRead}, q ∈ observationReads model policy as →
      q.row ∈ w.db.observations → ∀ x ∈ w.db.events,
      isTerminalFrom q.row.sourceSystem q.row.paymentAttemptId x = true →
      x.ingestedAt ≤ q.row.asOfTimestamp → x ∈ q.terminal := by
    intro q hq hqrow x hx hterm hasOf
    refine ((readFrom h hq).mem x).mpr ⟨?_, hterm, hasOf⟩
    by_contra hnot
    exact absurd (hlate q hq hqrow x hx hterm hnot) (not_lt.mpr hasOf)
  have hemem : e ∈ r.terminal := by rw [he]; exact List.mem_cons_self
  obtain ⟨hek, heterm, heasOf⟩ := (hread.mem e).mp hemem
  have he' : e ∈ r'.terminal := hknown hr' hrow' e (hread.known hek) (hsource ▸ hkey ▸ heterm)
    (heasOf.trans hle)
  cases hl' : r'.terminal with
  | nil => rw [hl'] at he'; cases he'
  | cons x xs =>
      have hxmem : x ∈ r'.terminal := by rw [hl']; exact List.mem_cons_self
      obtain ⟨hxk, hxterm, -⟩ := (hread'.mem x).mp hxmem
      have hxe : x.ingestedAt ≤ e.ingestedAt := hread'.head x xs hl' e he'
      have hx : x ∈ r.terminal := hknown hr hrow x (hread'.known hxk)
        (hsource ▸ hkey ▸ hxterm) (hxe.trans heasOf)
      have hex : e.ingestedAt ≤ x.ingestedAt := hread.head e es he x hx
      by_cases heq : x = e
      · rw [heq]; rfl
      · -- both are first among the events ingested when they were
        have hfirst : ∀ {a b : PaymentEvent} {l : List PaymentEvent}, a ≠ b → b ∈ a :: l →
            [a, b].Sublist (a :: l) := by
          intro a b l hne hb
          refine List.Sublist.cons_cons a (List.singleton_sublist.mpr ?_)
          exact (List.mem_cons.mp hb).resolve_left (Ne.symm hne)
        have hsub : [e, x].Sublist r.terminal := by
          rw [he] at hx ⊢
          exact hfirst (Ne.symm heq) hx
        have hsub' : [x, e].Sublist r'.terminal := by
          rw [hl'] at he' ⊢
          exact hfirst heq he'
        exact absurd hsub' (hties r hr r' hr' e hemem x hx (Ne.symm heq)
          (le_antisymm hex hxe) hsub)

/-! ## Stored observations -/

/-- A stored observation was made by the run, and an attribution that credits the
intervention is supported. -/
def madeByRun (C : PaymentOutcomeObservation → Prop) : Justification where
  holds db
    | .insertObservation o => C o
    | .appendAttribution a => Credits a → Supported db a
    | _ => True
  lasting {db db' w} hkeeps h := by
    cases w with
    | appendAttribution a => exact fun hcredits => (h hcredits).mono hkeeps
    | _ => exact h

/-- The observations the calls make meet `C`. -/
def observingGuard (model : FailurePredictionModel) (policy : InterventionPolicy)
    (C : PaymentOutcomeObservation → Prop) (db : Database) (s : TransactionSession)
    (input : TransactionInput) : Prop :=
  ∀ id asOf o, s.proc = .calling (.observe id asOf) →
    observe (input.reads ((transactionProgram model policy).reads db s)) id asOf = .ok o → C o

theorem transactionProgram_madeByRun (model : FailurePredictionModel)
    (policy : InterventionPolicy) (C : PaymentOutcomeObservation → Prop) :
    (madeByRun C).Respected (transactionProgram model policy) (observingGuard model policy C) where
  apply := rfl
  arrive {db x ws ps} harr w hw := by
    obtain ⟨rfl, -⟩ := transactionProgram_arrive harr
    cases x <;> simp_all [TransactionArrival.effect, madeByRun]
  write {db s input ws next} hreads hg h w hw := by
    have hview : Keeps ((transactionProgram model policy).view db s)
        ((transactionProgram model policy).view db (s.wrote ws next)) := keeps_view_wrote rfl db s ws next
    generalize ho : Outcome.write ws next = o at h
    cases transactionStepped h with
    | requested hproc =>
        cases hr : input.request <;> rw [hr] at ho <;> cases ho <;> simp_all [madeByRun]
    | returned => cases ho; simp at hw
    | raised => cases ho
    | @called p o' hproc hp hcall =>
        cases o' with
        | write vs next' =>
            obtain ⟨rfl, -⟩ := Outcome.write.inj ho
            have horigin := hcall.origin hw
            cases w with
            | insertObservation o =>
                obtain ⟨id, asOf, rfl, hobs⟩ := horigin
                exact hg id asOf o hproc hobs
            | appendAttribution a =>
                obtain ⟨id, asOf, rfl, hattr⟩ := horigin
                exact fun hcredits => attribution_supported hattr hcredits
                  fun k => (hreads k).trans hview
            | _ => exact trivial
        | _ => cases ho

/-- Stored observations are among those the run made, and stored attributions that credit
the intervention are supported. -/
theorem transactionRun_madeByRun (h : transactionRun model policy as = some w) :
    Justified (madeByRun fun o => ∃ r ∈ observationReads model policy as, r.row = o) w.db := by
  refine ((transactionProgram_madeByRun model policy _).invariant.exec
    (.empty (.empty _)) (Run.guarded_of_forall fun as₁ a as₂ u heq hu => ?_) h).store
  cases a with
  | advance i input =>
      intro s hs id asOf o hproc hobs
      let r := input.reads ((transactionProgram model policy).reads u.db s)
      let read : ObservationRead := ⟨o, (r.db 2).events,
        getCanonicalTerminalEvents r 2 o.sourceSystem o.paymentAttemptId asOf⟩
      refine ⟨read, Run.mem_collect.mpr ⟨as₁, _, as₂, u, heq, hu, ?_⟩, rfl⟩
      simp [observationRead?, hs, hproc, hobs, Except.toOption, read, r]
  | _ => exact trivial

/-! ## Finality -/

/-- Provided that events unknown to an observation are ingested after its `asOf` and that
ties are broken the same way each time: an observation that found an outcome gives the
outcome and the terminal event of every observation of the attempt as of a later time, and
no command of an attempt whose first terminal event is a failure is ever credited. -/
theorem first_outcome_final (h : transactionRun model policy as = some w)
    (hlate : LateEventsLater model policy as w.db) (hties : TiesAgree model policy as) :
    (∀ o ∈ w.db.observations, ∀ o' ∈ w.db.observations, o.sourceSystem = o'.sourceSystem →
      o.paymentAttemptId = o'.paymentAttemptId → o.asOfTimestamp ≤ o'.asOfTimestamp →
      o.paymentOutcome ≠ .unknownInFlight →
      o'.paymentOutcome = o.paymentOutcome ∧ o'.terminalEventId = o.terminalEventId) ∧
    ∀ e, ∀ cmd ∈ w.db.commands,
      FirstTerminal model policy as w.db cmd.sourceSystem cmd.paymentAttemptId e →
      e.eventType = failedEventType →
      ∀ a ∈ w.db.attributions, a.commandId = cmd.commandId → ¬ Credits a := by
  have hmade := transactionRun_madeByRun h
  refine ⟨fun o ho o' ho' hsource hkey hle houtcome => ?_,
    fun e cmd hcmd hfirst hfailed a ha haid hcredits => ?_⟩
  · obtain ⟨r, hr, rfl⟩ := hmade.observations o ho
    obtain ⟨r', hr', rfl⟩ := hmade.observations o' ho'
    have hread := readFrom h hr
    have hread' := readFrom h hr'
    cases hl : r.terminal with
    | nil => simp [hread.outcome, hl] at houtcome
    | cons e es =>
        have hhead := terminal_head h hlate hties hr hr' ho ho' hsource hkey hle hl
        rw [hread.outcome, hread.terminalEventId, hread'.outcome, hread'.terminalEventId, hhead,
          hl]
        exact ⟨rfl, rfl⟩
  · obtain ⟨cmd', hcmd', hid', -, -, -, -, -, -, o, ho, -, -, hcaptured, hsource, hkey, -⟩ :=
      hmade.attributions a ha hcredits
    obtain rfl := (transactionRun_met h).store.command_eq hcmd' hcmd (.inl (hid'.trans haid))
    obtain ⟨r, hr, rfl⟩ := hmade.observations o ho
    have hread := readFrom h hr
    obtain ⟨hemem, heterm, hmin⟩ := hfirst
    cases hl : r.terminal with
    | nil => simp [hread.outcome, hl] at hcaptured
    | cons x xs =>
        have hxmem : x ∈ r.terminal := by rw [hl]; exact List.mem_cons_self
        obtain ⟨hxk, hxterm, hxasOf⟩ := (hread.mem x).mp hxmem
        have hxcaptured : x.eventType = capturedEventType := by
          by_contra hne
          simp [hread.outcome, hl, eventOutcome, hne] at hcaptured
        have hne : x ≠ e := by
          rintro rfl
          rw [hxcaptured] at hfailed
          exact absurd hfailed (by decide)
        obtain ⟨hle, htie⟩ := hmin x (hread.known hxk) (hsource ▸ hkey ▸ hxterm) hne
        have heknown : e ∈ r.terminal := by
          refine (hread.mem e).mpr ⟨?_, hsource ▸ hkey ▸ heterm, hle.trans hxasOf⟩
          by_contra hnot
          exact absurd (hlate r hr ho e hemem (hsource ▸ hkey ▸ heterm) hnot)
            (not_lt.mpr (hle.trans hxasOf))
        have heq : e.ingestedAt = x.ingestedAt := le_antisymm hle (hread.head x xs hl e heknown)
        refine htie heq r hr ?_
        rw [hl] at heknown ⊢
        exact List.Sublist.cons_cons x (List.singleton_sublist.mpr
          ((List.mem_cons.mp heknown).resolve_left (Ne.symm hne)))

end Finality

namespace FinalityExample
open ObservationLogExample

/-- A terminal event of the payment. -/
def terminalEvent (i : ℕ) (eventType : String) (ingestedAt : Time) : PaymentEvent :=
  { eventId := i, sourceSystem := razorpaySourceSystem, sourceEventId := toString i,
    paymentId := "pay_1", timestamp := 0, eventType := eventType, currency := "INR",
    amountMinorUnits := 10000, paymentStatus := "captured", ingestedAt := ingestedAt }

/-- A failure is observed; a capture follows, and the payment is observed again. -/
def failedFirst : List TransactionAction :=
  [.arrive (.event (terminalEvent 1 failedEventType 5))] ++ firstObservation ++
    [.arrive (.event (terminalEvent 2 capturedEventType 15))] ++
    request (.observe commandId 20) 2 ++ request .commit 0

end FinalityExample

open ObservationLogExample FinalityExample in
theorem first_outcome_final_failedFirst : ∃ w, world failedFirst = some w ∧
    ∃ o ∈ w.db.observations, o.asOfTimestamp = 20 ∧ o.paymentOutcome = .failed ∧
      o.observationAuditPayload.terminalEventCount = 2 := by
  have hrun : ((world failedFirst).map fun w => decide (
      LateEventsLater deterministicBaselineModel getDefaultPolicy failedFirst w.db ∧
      TiesAgree deterministicBaselineModel getDefaultPolicy failedFirst ∧
      ∃ o ∈ w.db.observations, ∃ o' ∈ w.db.observations, o.paymentOutcome = .failed ∧
        o.asOfTimestamp ≤ o'.asOfTimestamp ∧ o'.asOfTimestamp = 20 ∧
        o.sourceSystem = o'.sourceSystem ∧ o.paymentAttemptId = o'.paymentAttemptId ∧
        o'.observationAuditPayload.terminalEventCount = 2)) = some true := by decide +kernel
  obtain ⟨w, hw, hfacts⟩ := Option.map_eq_some_iff.mp hrun
  obtain ⟨hlate, hties, o, ho, o', ho', hfailed, hle, hasOf, hsource, hkey, hcount⟩ :=
    of_decide_eq_true hfacts
  have hsame := (first_outcome_final hw hlate hties).1 o ho o' ho' hsource hkey hle
    (by rw [hfailed]; decide)
  exact ⟨w, hw, o', ho', hasOf, hsame.1.trans hfailed, hcount⟩

end RevenueRecovery
