import RevenueRecovery.Ingestion.Normalizers
import RevenueRecovery.LivePipeline.Run
import RevenueRecovery.Services.Confined

/-!
# Providers do not interfere

Runs of the live pipeline for PayPal events read and write rows of PayPal, and the other runs
those of others, with the tables of Stages 2-4. So what is left of a run without the events of
one kind is a run, and leaves the same rows of the other kind.

## Main definitions
* `LiveProc.Confined` : a run for an event of one provider.
* `onlyProvider` : the part of a run that PayPal events have, or all others.
* `NormalizedPaypal` : PayPal events come from the normalizer.
-/
namespace RevenueRecovery

open Transaction

/-! ## Stages 2-4 -/

section Analytics
variable {events events' : List PaymentEvent}

theorem getEventsInWindow_ofProvider (db : Database) (windowStart windowEnd : Time) :
    getEventsInWindow (db.ofProvider false).events windowStart windowEnd =
      getEventsInWindow db.events windowStart windowEnd := by
  refine Table.filter_filter_of_imp fun e _ he => ?_
  rw [PaymentEvent.isPaypal_of_inRazorpayPipeline (of_decide_eq_true he).2.2]
  rfl

/-- An evaluation reads events through their windows. -/
theorem evaluateEpisode_congr
    (h : ∀ a b, getEventsInWindow events a b = getEventsInWindow events' a b)
    (tables : AnalyticsTables) (ep : DegradationEpisode) (now : Time) :
    evaluateEpisode events tables ep now = evaluateEpisode events' tables ep now := by
  have hterminal : terminalEventsInWindow events = terminalEventsInWindow events' := by
    funext window
    rw [terminalEventsInWindow, h, terminalEventsInWindow]
  unfold evaluateEpisode
  rw [hterminal]

/-- Stages 2-4 read no event of PayPal. -/
theorem runAnalytics_ofProvider (order : ℕ → ℕ → ℕ) (db : Database) (e : PaymentEvent)
    (now : Time) : runAnalytics order (db.ofProvider false) e now = runAnalytics order db e now := by
  have hevaluate : evaluateEpisode (db.ofProvider false).events = evaluateEpisode db.events := by
    funext tables ep now
    exact evaluateEpisode_congr (getEventsInWindow_ofProvider db) tables ep now
  have hanalytics : (db.ofProvider false).analytics = db.analytics := rfl
  unfold runAnalytics analyzeRootCauses calculateAndSaveWindow windowSnapshots
  simp only [getEventsInWindow_ofProvider, hevaluate, hanalytics]

end Analytics

/-! ## Runs of one provider -/

section Confined
variable (policy : InterventionPolicy) (paypal : Bool)

/-- The run is for an event of PayPal, or for one of others. -/
def LiveProc.Confined : LiveProc → Prop
  | .analytics e | .analyticsStored e => e.isPaypal = paypal ∧ paypal = false
  | .start e => e.isPaypal = paypal
  | .registered e ref => e.isPaypal = paypal ∧ isPaypalSource ref.sourceSystem = paypal
  | .trigger _ ref p => isPaypalSource ref.sourceSystem = paypal ∧ p.Confined policy paypal
  | .settle _ queue => ∀ x ∈ queue, hasPaypalPrefix x.1.paymentAttemptId = paypal
  | .settling _ id _ queue p => hasPaypalPrefix id.paymentAttemptId = paypal ∧
      (∀ x ∈ queue, hasPaypalPrefix x.1.paymentAttemptId = paypal) ∧ p.Confined policy paypal
  | .finish | .finished | .failed => True

end Confined

section Steps
variable {policy : InterventionPolicy} {paypal : Bool} {p : LiveProc} {db : Database}
  {s : LiveSession} {input : LiveInput} {o : LiveOutcome} {e : PaymentEvent}

theorem LiveProc.confined_onError (p : LiveProc) : p.onError.Confined policy paypal := by
  cases p <;> trivial

theorem LiveProc.confined_of_call? {q : CallProc} {f : CallProc → LiveProc}
    (h : p.call? = some (q, f)) (hp : p.Confined policy paypal) :
    q.Confined policy paypal ∧ ∀ q', q'.Confined policy paypal → (f q').Confined policy paypal := by
  cases p <;> cases h
  · exact ⟨hp.2, fun q' hq' => ⟨hp.1, hq'⟩⟩
  · exact ⟨hp.2.2, fun q' hq' => ⟨hp.1, hp.2.1, hq'⟩⟩

theorem pipelineRuns_confined (hp : p ∈ pipelineRuns e) : p.Confined policy e.isPaypal := by
  rcases pipelineRuns_cases hp with ⟨-, rfl⟩ | ⟨hpaypal, rfl⟩
  · exact rfl
  · exact ⟨rfl, hpaypal⟩

/-- The attempt of a trigger event is of the event's provider. -/
theorem forTriggerEvent_source {ref : AttemptRef} (h : AttemptRef.forTriggerEvent e = .ok ref) :
    isPaypalSource ref.sourceSystem = e.isPaypal := by
  unfold AttemptRef.forTriggerEvent at h
  cases hpaypal : e.isPaypal with
  | true =>
      simp only [hpaypal, if_true] at h
      split at h
      · cases h
      · rw [(AttemptRef.make_ok h).1]
        rfl
  | false =>
      simp only [hpaypal, Bool.false_eq_true, if_false] at h
      split at h
      · cases h
      · rw [(AttemptRef.make_ok h).1]
        exact hpaypal

theorem registration_filed {row : RegisteredAttempt} (h : registration e = .ok row) :
    (Write.registerAttempt row).Filed policy e.isPaypal := by
  unfold registration at h
  cases href : AttemptRef.forTriggerEvent e with
  | error err => simp [href, bind, Except.bind] at h
  | ok ref =>
      simp only [href, bind, Except.bind, pure, Except.pure, Except.ok.injEq] at h
      subst h
      have hsource := forTriggerEvent_source href
      exact ⟨hsource, by simpa using (AttemptRef.own hsource).key⟩

theorem resolvePipelineAttempt_source {role : PipelineRole} {ref : AttemptRef}
    (h : resolvePipelineAttempt e = some ⟨role, ref⟩) :
    isPaypalSource ref.sourceSystem = e.isPaypal :=
  congrArg isPaypalSource (resolvePipelineAttempt_spec h).2.1

/-- The commands a terminal event settles are of its provider. -/
theorem settlementQueue_filed {r : Reads} (hdb : ∀ k, FiledRows policy (r.db k))
    {paymentAttemptId : String} (hkey : hasPaypalPrefix paymentAttemptId = paypal) :
    ∀ x ∈ settlementQueue r e paymentAttemptId, hasPaypalPrefix x.1.paymentAttemptId = paypal := by
  intro x hx
  obtain ⟨c, hc, rfl⟩ := List.mem_map.mp hx
  obtain ⟨hmem, hrow⟩ := Reads.mem_rows.mp hc
  have hfiled := FiledUnder.own c.paymentAttemptId ((hdb 0).commands c hmem) (by simp)
    (of_decide_eq_true hrow ▸ hkey)
  exact hfiled.2 c.commandId.paymentAttemptId (by simp)

/-- The commands of an attempt, whatever their provider, are those of its provider. -/
theorem settlementQueue_ofProvider {r : Reads} (hdb : ∀ k, FiledRows policy (r.db k))
    {paymentAttemptId : String} (hkey : hasPaypalPrefix paymentAttemptId = paypal) :
    settlementQueue (r.ofProvider paypal) e paymentAttemptId =
      settlementQueue r e paymentAttemptId := by
  unfold settlementQueue Reads.rows
  refine congrArg _ (congrArg (Table.scan (r.order 0))
    (Table.filter_filter_of_imp fun c hc hrow => ?_))
  exact source_of_key c.paymentAttemptId ((hdb 0).commands c hc) (by simp)
    (of_decide_eq_true hrow ▸ hkey)

/-- A run goes on for its event, and writes rows of its provider. -/
theorem liveStep_confined (hcost : policy.costCurrency ≠ "")
    (hreads : ∀ k, FiledRows policy ((liveProgram policy).reads db s k))
    (hs : s.proc.Confined policy paypal) (ho : (liveProgram policy).outcome db s input = some o) :
    o.next.Confined policy paypal ∧ WritesConfined policy paypal o := by
  obtain ⟨p, pending, locks, views⟩ := s
  cases liveStepped ho with
  | failed => exact ⟨trivial, .rollback⟩
  | analytics hproc =>
      obtain rfl : p = _ := hproc
      exact ⟨hs, .single hs.2 rfl⟩
  | analyticsStored hproc =>
      obtain rfl : p = _ := hproc
      exact ⟨hs.1, .commit⟩
  | noAttempt | conflict | settleNil => exact ⟨trivial, .nil⟩
  | finish => exact ⟨trivial, .commit⟩
  | @register e ref row hproc h hrow =>
      obtain rfl : p = _ := hproc
      obtain rfl : e.isPaypal = paypal := hs
      exact ⟨⟨rfl, resolvePipelineAttempt_source h⟩, .single (registration_filed hrow) rfl⟩
  | @readCommands e ref hproc h =>
      obtain rfl : p = _ := hproc
      obtain rfl : e.isPaypal = paypal := hs
      have hown := AttemptRef.own (resolvePipelineAttempt_source h)
      exact ⟨settlementQueue_filed hreads hown.key, .nil⟩
  | registered hproc =>
      obtain rfl : p = _ := hproc
      exact ⟨⟨hs.2, hs.2⟩, .nil⟩
  | @triggerReturned e ref result hproc =>
      obtain rfl : p = _ := hproc
      refine ⟨?_, .nil⟩
      obtain ⟨hsource, hresult⟩ := hs
      cases result with
      | prediction q =>
          simp only [Outcome.next, afterTriggerCall]
          split
          · exact ⟨hsource, hsource⟩
          · trivial
      | decision d =>
          simp only [Outcome.next, afterTriggerCall]
          split
          · exact ⟨hsource, hresult⟩
          · trivial
      | command c => exact ⟨hsource, hresult.2 c.commandId.paymentAttemptId (by simp), trivial⟩
      | _ => trivial
  | @settleCons e id asOf queue hproc =>
      obtain rfl : p = _ := hproc
      have hid := hs (id, asOf) List.mem_cons_self
      exact ⟨⟨hid, fun x hx => hs x (List.mem_cons_of_mem _ hx), hid⟩, .nil⟩
  | @settlingReturned e id asOf queue result hproc =>
      obtain rfl : p = _ := hproc
      refine ⟨?_, .nil⟩
      obtain ⟨hid, hqueue, -⟩ := hs
      cases result with
      | observation row => exact ⟨hid, hqueue, hid⟩
      | _ => exact hqueue
  | @called q f o' hproc hq hcall =>
      obtain ⟨hcalled, hnext⟩ := LiveProc.confined_of_call? hproc hs
      obtain ⟨hcall', hwrites⟩ := hcall.confined hcost hreads hcalled
      refine ⟨?_, hwrites.map f⟩
      cases o' <;> exact hnext _ hcall'

/-- A run does the same on the rows of its provider as on all rows. -/
theorem liveStep_ofProvider {reads : ℕ → Database} {now : Database}
    (hreads : ∀ k, FiledRows policy (reads k)) (hnow : FiledRows policy now)
    (hp : p.Confined policy paypal) :
    liveStep policy p input (fun k => (reads k).ofProvider paypal) (now.ofProvider paypal) =
      liveStep policy p input reads now := by
  have hcall : ∀ {q : CallProc}, q.Confined policy paypal →
      callStep deterministicBaselineModel policy input.toCallInput
        (fun k => (reads k).ofProvider paypal) (now.ofProvider paypal) q =
      callStep deterministicBaselineModel policy input.toCallInput reads now q :=
    fun hq => callStep_ofProvider hreads hnow hq
  cases p with
  | analytics e =>
      obtain ⟨-, rfl⟩ := hp
      simp only [liveStep, runAnalytics_ofProvider]
  | analyticsStored e => rfl
  | start e =>
      simp only [liveStep]
      split
      · rfl
      · rfl
      · rename_i ref h
        obtain rfl : e.isPaypal = paypal := hp
        have hown := AttemptRef.own (resolvePipelineAttempt_source h)
        have hqueue : settlementQueue
            ((input.toCallInput.reads reads).ofProvider e.isPaypal) e ref.paymentAttemptId =
              settlementQueue (input.toCallInput.reads reads) e ref.paymentAttemptId :=
          settlementQueue_ofProvider hreads hown.key
        exact congrArg (fun queue => some (Outcome.write [] (LiveProc.settle e queue))) hqueue
  | registered e ref =>
      have hrequire : (AttemptRef.forTriggerEvent e).bind ((reads 0).ofProvider paypal).require =
          (AttemptRef.forTriggerEvent e).bind (reads 0).require := by
        cases href : AttemptRef.forTriggerEvent e with
        | error err => rfl
        | ok ref' =>
            have hsource := (forTriggerEvent_source href).trans hp.1
            exact require_ofProvider (hreads 0) (AttemptRef.own hsource).key
      simp only [liveStep, hrequire]
  | trigger e ref q =>
      cases q <;> first | rfl | simp only [liveStep, hcall hp.2]
  | settle e queue => cases queue <;> rfl
  | settling e id asOf queue q =>
      cases q <;> first | rfl | simp only [liveStep, hcall hp.2.2]
  | finish => rfl
  | finished => rfl
  | failed => rfl

end Steps

/-! ## Parts of a run -/

/-- The provider of a session that is kept, and of one that is not. -/
def keptProvider (paypal own : Bool) : Bool := if own then paypal else !paypal

/-- The part of a run that the events of PayPal have, or those of all others. -/
def onlyProvider (paypal : Bool) (as : List LiveAction) : List LiveAction :=
  restrict (fun e : PaymentEvent => e.isPaypal == paypal) (fun e => (pipelineRuns e).length) [] as

@[simp] theorem keptProvider_isPaypal (paypal : Bool) (e : PaymentEvent) :
    keptProvider paypal (e.isPaypal == paypal) = e.isPaypal := by
  cases paypal <;> cases e.isPaypal <;> rfl

section Parts
variable {policy : InterventionPolicy} {as : List LiveAction} {w : LiveWorld}

/-- Runs of the live pipeline read and write the rows of their provider. -/
theorem liveRestriction (hcost : policy.costCurrency ≠ "") (paypal : Bool) :
    (liveProgram policy).Restriction (fun e => e.isPaypal == paypal)
      (fun e => (pipelineRuns e).length)
      (fun e => e.isPaypal = true → e.currency ≠ policy.costCurrency)
      (Database.ofProvider paypal) (FiledRows policy)
      (fun own a => a.Filed policy (keptProvider paypal own))
      (fun own p => p.Confined policy (keptProvider paypal own)) where
  keep h ha := h.apply ha
  project_own h ha := h.ofProvider_apply ha
  project_other h ha := h.ofProvider_apply_other ha
  arrive {db e ws ps} h hcurrency harr := by
    obtain ⟨rfl, rfl⟩ := liveProgram_arrive harr
    refine ⟨rfl, rfl, fun a ha => ?_, fun p hp => ?_, fun _ hok => ?_⟩
    · obtain rfl := List.mem_singleton.mp ha
      rw [keptProvider_isPaypal]
      exact ⟨rfl, hcurrency⟩
    · rw [keptProvider_isPaypal]
      exact pipelineRuns_confined hp
    · have hfresh : db.events.any e.sameIdentity = false := by
        simpa [Program.violatesAny, Database.violates] using hok
      have hown : (db.ofProvider paypal).events.any e.sameIdentity = false := by
        rw [List.any_eq_false] at hfresh ⊢
        exact fun x hx => hfresh x (List.mem_filter.mp hx).1
      simpa [Program.violatesAny, Database.violates] using hown
  error {own p} _ := LiveProc.confined_onError p
  step hp hreads _ ho := by
    obtain ⟨hnext, hwrites⟩ := liveStep_confined hcost hreads hp ho
    exact ⟨hnext, fun ws next heq a ha => (hwrites ws next heq a ha).1⟩
  same hp hreads hnow := liveStep_ofProvider hreads hnow hp
  violates hp hreads _ ho ha hdb := by
    obtain ⟨hfiled, hevent⟩ := (liveStep_confined hcost hreads hp ho).2 _ _ rfl _ ha
    exact hdb.violates_ofProvider hfiled hevent

/-- What is left of a run without the events of one kind is a run, and it leaves the same rows
of the other kind. -/
theorem liveRun_onlyProvider (hcost : policy.costCurrency ≠ "") (paypal : Bool)
    (hcurrency : ∀ e, .arrive e ∈ as → e.isPaypal = true → e.currency ≠ policy.costCurrency)
    (h : liveRun policy as = some w) :
    ∃ w', liveRun policy (onlyProvider paypal as) = some w' ∧ w'.db = w.db.ofProvider paypal := by
  have hempty : Database.ofProvider paypal {} = {} := by
    cases paypal <;> rfl
  obtain ⟨w', hw', hdb⟩ := (liveRestriction hcost paypal).exec (.empty (.empty policy)) hcurrency h
  rw [hempty] at hw'
  exact ⟨w', hw', hdb⟩

end Parts

/-! ## Two runs -/

/-- The PayPal events of a run come from webhooks that the normalizer accepts. -/
def NormalizedPaypal (python : PythonLibrary) (as : List LiveAction) : Prop :=
  ∀ e, .arrive e ∈ as → e.isPaypal = true →
    ∃ event eventId now, normalizePaypalEvent python event eventId now = .ok e

/-- Amounts are in a currency with known minor units. -/
theorem normalizePaypalEvent_currency {python : PythonLibrary} {event : PayPalWebhookEvent}
    {eventId : ℕ} {now : Time} {e : PaymentEvent}
    (h : normalizePaypalEvent python event eventId now = .ok e) :
    (paypalCurrencyExponents.lookup e.currency).isSome = true := by
  unfold normalizePaypalEvent at h
  simp only [bind, Except.bind] at h
  split at h
  · split at h
    · cases h
    · split at h
      · cases h
      · rename_i amount _
        split at h
        · cases h
        · cases hexponent : paypalCurrencyExponents.lookup amount.currencyCode with
          | none => simp [toMinorUnits, hexponent, throw, throwThe, MonadExceptOf.throw] at h
          | some exponent =>
              split at h
              · cases h
              · cases h
                rw [hexponent]
                rfl
  · cases h

/-- No PayPal event is in the currency of the default policy's costs. -/
theorem NormalizedPaypal.currency {python : PythonLibrary} {as : List LiveAction}
    (h : NormalizedPaypal python as) (e : PaymentEvent) (he : .arrive e ∈ as)
    (hpaypal : e.isPaypal = true) : e.currency ≠ getDefaultPolicy.costCurrency := by
  obtain ⟨event, eventId, now, hnormalized⟩ := h e he hpaypal
  have hknown := normalizePaypalEvent_currency hnormalized
  have hunknown : paypalCurrencyExponents.lookup getDefaultPolicy.costCurrency = none := by
    decide +kernel
  rintro heq
  rw [heq, hunknown] at hknown
  cases hknown

/-- Two runs that differ in the events of PayPal and in their runs leave the same tables of
Stages 2-4 and the same rows of all other attempts, and two runs that differ in the events of
others leave the same rows of PayPal attempts. -/
theorem provider_noninterference {python : PythonLibrary} {as as' : List LiveAction}
    {w w' : LiveWorld} (hpaypal : NormalizedPaypal python as)
    (hpaypal' : NormalizedPaypal python as') (h : liveRun getDefaultPolicy as = some w)
    (h' : liveRun getDefaultPolicy as' = some w') :
    (onlyProvider false as = onlyProvider false as' →
      w.db.analytics = w'.db.analytics ∧ w.db.ofProvider false = w'.db.ofProvider false) ∧
    (onlyProvider true as = onlyProvider true as' →
      w.db.ofProvider true = w'.db.ofProvider true) := by
  have hsame : ∀ paypal, onlyProvider paypal as = onlyProvider paypal as' →
      w.db.ofProvider paypal = w'.db.ofProvider paypal := by
    intro paypal hpart
    obtain ⟨v, hv, hdb⟩ := liveRun_onlyProvider (by decide) paypal hpaypal.currency h
    obtain ⟨v', hv', hdb'⟩ := liveRun_onlyProvider (by decide) paypal hpaypal'.currency h'
    rw [hpart, hv', Option.some.injEq] at hv
    rw [← hdb, ← hdb', hv]
  refine ⟨fun hpart => ⟨?_, hsame false hpart⟩, hsame true⟩
  have hanalytics := congrArg Database.analytics (hsame false hpart)
  exact hanalytics

namespace NoninterferenceExample

/-- An authorization of payment `pay_1`. -/
def authorization : PaymentEvent :=
  { eventId := 1, sourceSystem := razorpaySourceSystem, sourceEventId := "evt_1",
    paymentId := "pay_1", timestamp := 1, eventType := pipelineTriggerEventType,
    currency := "INR", amountMinorUnits := 10000, paymentStatus := "authorized", ingestedAt := 1 }

/-- The approval of a PayPal order of 12.50 dollars. -/
def approval : PayPalWebhookEvent :=
  { eventId := "WH-1", eventType := "CHECKOUT.ORDER.APPROVED",
    createTime := "2026-01-05T10:00:00Z", resource := .order [⟨"USD", "12.50"⟩],
    captureId := none, orderId := some "5O190127TN364715T" }

def python : PythonLibrary where
  upper := String.toUpper
  fromIsoFormat s := if s = "2026-01-05T10:00:00Z" then some ⟨Time.seconds 1767607200, 0⟩ else none

/-- Its canonical event. -/
def approved : PaymentEvent :=
  { eventId := 2, sourceSystem := paypalSourceSystem, sourceEventId := "WH-1",
    paymentId := "5O190127TN364715T", orderId := some "5O190127TN364715T",
    timestamp := Time.seconds 1767607200, eventType := paypalTriggerEventType, currency := "USD",
    amountMinorUnits := 1250, paymentStatus := "approved", ingestedAt := Time.seconds 1767607201 }

/-- Session `i` takes `n` steps. -/
def advances (i n : ℕ) : List LiveAction := List.replicate n (.advance i {})

def alone : List LiveAction := .arrive authorization :: advances 0 8
def paypalAlone : List LiveAction := .arrive approved :: advances 0 6
def together : List LiveAction :=
  .arrive approved :: (advances 0 6 ++ .arrive authorization :: advances 1 8)

theorem arrive_not_mem_advances (i n : ℕ) (e : PaymentEvent) : .arrive e ∉ advances i n := by
  intro h
  cases List.eq_of_mem_replicate h

/-- The approval is the only PayPal event. -/
theorem normalized {as : List LiveAction}
    (h : ∀ e, .arrive e ∈ as → e = approved ∨ e = authorization) : NormalizedPaypal python as := by
  intro e he hpaypal
  rcases h e he with rfl | rfl
  · exact ⟨approval, 2, Time.seconds 1767607201, rfl⟩
  · exact absurd hpaypal (by decide)

end NoninterferenceExample

open NoninterferenceExample in
theorem provider_noninterference_approval : ∃ w w' v,
    liveRun getDefaultPolicy together = some w ∧ w.db.predictions.length = 2 ∧
    liveRun getDefaultPolicy alone = some w' ∧ w.db.analytics = w'.db.analytics ∧
    w.db.ofProvider false = w'.db.ofProvider false ∧
    liveRun getDefaultPolicy paypalAlone = some v ∧
    w.db.ofProvider true = v.db.ofProvider true := by
  have htogether : ((liveRun getDefaultPolicy together).map (·.db.predictions.length)) = some 2 ∧
      (liveRun getDefaultPolicy alone).isSome ∧ (liveRun getDefaultPolicy paypalAlone).isSome := by
    decide +kernel
  obtain ⟨hrun, halone, hpaypal⟩ := htogether
  obtain ⟨w, hw, hlength⟩ := Option.map_eq_some_iff.mp hrun
  obtain ⟨w', hw'⟩ := Option.isSome_iff_exists.mp halone
  obtain ⟨v, hv⟩ := Option.isSome_iff_exists.mp hpaypal
  have hall : NormalizedPaypal python together := normalized fun e he => by
    simpa [together, arrive_not_mem_advances] using he
  have hnone : NormalizedPaypal python alone := normalized fun e he => by
    exact .inr (by simpa [alone, arrive_not_mem_advances] using he)
  have hone : NormalizedPaypal python paypalAlone := normalized fun e he => by
    exact .inl (by simpa [paypalAlone, arrive_not_mem_advances] using he)
  obtain ⟨hanalytics, hothers⟩ := (provider_noninterference hall hnone hw hw').1 rfl
  exact ⟨w, w', v, hw, hlength, hw', hanalytics, hothers, hv,
    (provider_noninterference hall hone hw hv).2 rfl⟩

end RevenueRecovery
