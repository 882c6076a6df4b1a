import RevenueRecovery.Services.Providers

/-!
# Calls read the rows of their own provider

The queries of a call name an attempt, a command, or the provider itself. On the rows of the
provider alone they return what they return on all rows.

## Main definitions
* `Reads.ofProvider` : the statements read the rows of one provider only.
* `OwnAttempt` : an attempt of the provider.
-/
namespace RevenueRecovery

open Transaction

/-- Every statement reads the rows of one provider only. -/
def Reads.ofProvider (paypal : Bool) (r : Reads) : Reads :=
  { r with db := fun k => (r.db k).ofProvider paypal }

@[simp] theorem Reads.db_ofProvider (paypal : Bool) (r : Reads) (k : ℕ) :
    (r.ofProvider paypal).db k = (r.db k).ofProvider paypal := rfl

@[simp] theorem Reads.shift_ofProvider (paypal : Bool) (r : Reads) (k : ℕ) :
    (r.ofProvider paypal).shift k = (r.shift k).ofProvider paypal := rfl

/-! ## Attempts of a provider -/

/-- The attempt belongs to PayPal, or to another provider. -/
structure OwnAttempt (paypal : Bool) (sourceSystem paymentAttemptId : String) : Prop where
  source : isPaypalSource sourceSystem = paypal
  key : hasPaypalPrefix paymentAttemptId = paypal
  order : (paypalOrderId paymentAttemptId).isSome = paypal

theorem hasPaypalPrefix_paypalAttemptId (orderId : String) :
    hasPaypalPrefix (paypalAttemptId orderId) = true := by
  simp [hasPaypalPrefix, paypalAttemptId]

theorem paypalOrderId_of_unprefixed {key : String} (h : hasPaypalPrefix key = false) :
    paypalOrderId key = none := by
  unfold hasPaypalPrefix at h
  unfold paypalOrderId
  simp only [decide_eq_false_iff_not] at h
  simp [h]

/-- The identity rules of attempts keep the providers apart. -/
theorem AttemptRef.ownAttempt (ref : AttemptRef) :
    OwnAttempt (isPaypalSource ref.sourceSystem) ref.sourceSystem ref.paymentAttemptId := by
  have hvalid := ref.valid
  unfold validAttemptIdentity at hvalid
  split at hvalid
  · cases hvalid
  · split at hvalid
    · rename_i hpaypal
      have hsource : isPaypalSource ref.sourceSystem = true := hpaypal
      split at hvalid
      · rename_i hmatch
        simp only [Bool.and_eq_true, beq_iff_eq] at hmatch
        have hne : ref.providerReference ≠ "" := by
          rintro hempty
          rw [hempty] at hmatch
          exact absurd hmatch.1 (by decide)
        rw [hsource, hmatch.2]
        exact ⟨hsource, hasPaypalPrefix_paypalAttemptId _,
          by rw [paypalOrderId_paypalAttemptId hne]; rfl⟩
      · cases hvalid
    · rename_i hother
      have hsource : isPaypalSource ref.sourceSystem = false := by simpa [isPaypalSource] using hother
      split at hvalid
      · rename_i hmatch
        simp only [Bool.and_eq_true, Bool.not_eq_true'] at hmatch
        have hkey := hmatch.2
        rw [hsource]
        exact ⟨hsource, hkey, by rw [paypalOrderId_of_unprefixed hkey]; rfl⟩
      · cases hvalid

/-! ## Registry and rows -/

section Rows
variable {policy : InterventionPolicy} {paypal : Bool} {db : Database}
  {sourceSystem paymentAttemptId : String}

theorem require_ofProvider (h : FiledRows policy db) {ref : AttemptRef}
    (hkey : hasPaypalPrefix ref.paymentAttemptId = paypal) :
    (db.ofProvider paypal).require ref = db.require ref := by
  rw [Database.require, Database.require, findAttempt_ofProvider h hkey]

theorem requireKey_ofProvider (h : FiledRows policy db)
    (hkey : hasPaypalPrefix paymentAttemptId = paypal) :
    (db.ofProvider paypal).requireKey sourceSystem paymentAttemptId =
      db.requireKey sourceSystem paymentAttemptId := by
  unfold Database.requireKey
  cases href : AttemptRef.forKey sourceSystem paymentAttemptId with
  | error e => rfl
  | ok ref =>
      refine require_ofProvider h ?_
      rw [(AttemptRef.forKey_ok href).2]
      exact hkey

/-- A registered attempt obeys the identity rules. -/
theorem ownAttempt_of_requireKey {row : RegisteredAttempt}
    (h : db.requireKey sourceSystem paymentAttemptId = .ok row)
    (hkey : hasPaypalPrefix paymentAttemptId = paypal) :
    OwnAttempt paypal sourceSystem paymentAttemptId := by
  unfold Database.requireKey at h
  cases href : AttemptRef.forKey sourceSystem paymentAttemptId with
  | error e =>
      rw [href] at h
      cases h
  | ok ref =>
      obtain ⟨hsource, hkey'⟩ := AttemptRef.forKey_ok href
      have hown := ref.ownAttempt
      rw [hsource, hkey'] at hown
      obtain rfl := hkey
      rw [← hown.key] at hown
      exact hown

theorem registeredUnder_ofProvider (hsource : isPaypalSource sourceSystem = paypal) :
    (db.ofProvider paypal).registeredUnder sourceSystem paymentAttemptId =
      db.registeredUnder sourceSystem paymentAttemptId := by
  refine Table.any_filter_of_imp fun r _ hrow => ?_
  obtain ⟨-, hrow⟩ : _ ∧ r.sourceSystem = sourceSystem := by simpa using hrow
  rw [hrow, hsource]
  exact beq_self_eq_true paypal

theorem attemptPredictions_ofProvider (hsource : isPaypalSource sourceSystem = paypal) :
    attemptPredictions (db.ofProvider paypal) sourceSystem paymentAttemptId =
      attemptPredictions db sourceSystem paymentAttemptId := by
  unfold attemptPredictions
  rw [registeredUnder_ofProvider hsource]
  split
  · refine Table.filter_filter_of_imp fun p _ hrow => ?_
    rw [(of_decide_eq_true hrow).2, hsource]
    exact beq_self_eq_true paypal
  · rfl

theorem attemptDecisions_ofProvider (hsource : isPaypalSource sourceSystem = paypal) :
    attemptDecisions (db.ofProvider paypal) sourceSystem paymentAttemptId =
      attemptDecisions db sourceSystem paymentAttemptId := by
  unfold attemptDecisions
  rw [registeredUnder_ofProvider hsource]
  split
  · refine Table.filter_filter_of_imp fun d _ hrow => ?_
    rw [(of_decide_eq_true hrow).2, hsource]
    exact beq_self_eq_true paypal
  · rfl

theorem getCommandByAttemptAndVersion_ofProvider (hsource : isPaypalSource sourceSystem = paypal)
    (version : ℕ) :
    getCommandByAttemptAndVersion (db.ofProvider paypal) sourceSystem paymentAttemptId version =
      getCommandByAttemptAndVersion db sourceSystem paymentAttemptId version := by
  unfold getCommandByAttemptAndVersion
  rw [registeredUnder_ofProvider hsource]
  split
  · refine Table.find?_filter_of_imp fun c _ hrow => ?_
    rw [(of_decide_eq_true hrow).2.2, hsource]
    exact beq_self_eq_true paypal
  · rfl

theorem commandByDecision_ofProvider (h : FiledRows policy db) {id : DecisionId}
    (hid : hasPaypalPrefix id.paymentAttemptId = paypal) :
    ((db.ofProvider paypal).commands.find? fun c => c.decisionId = id) =
      db.commands.find? fun c => c.decisionId = id := by
  refine Table.find?_filter_of_imp fun c hc hrow => ?_
  exact source_of_key c.decisionId.paymentAttemptId (h.commands c hc) (by simp)
    (of_decide_eq_true hrow ▸ hid)

theorem getCommandById_ofProvider (h : FiledRows policy db) {id : CommandId}
    (hid : hasPaypalPrefix id.paymentAttemptId = paypal) :
    (db.ofProvider paypal).getCommandById id = db.getCommandById id := by
  refine Table.find?_filter_of_imp fun c hc hrow => ?_
  exact source_of_key c.commandId.paymentAttemptId (h.commands c hc) (by simp)
    (of_decide_eq_true hrow ▸ hid)

theorem statusIs_ofProvider (h : FiledRows policy db) {id : CommandId}
    (hid : hasPaypalPrefix id.paymentAttemptId = paypal) (status : CommandStatus) :
    statusIs (db.ofProvider paypal) id status = statusIs db id status := by
  refine Table.any_filter_of_imp fun c hc hrow => ?_
  obtain ⟨hrow, -⟩ : c.commandId = id ∧ c.commandStatus = status := by simpa using hrow
  exact source_of_key c.commandId.paymentAttemptId (h.commands c hc) (by simp) (hrow ▸ hid)

theorem executionAttempts_ofProvider (h : FiledRows policy db) {id : CommandId}
    (hid : hasPaypalPrefix id.paymentAttemptId = paypal) {q : ExecutionAttempt → Bool}
    (hq : ∀ a, q a = true → a.commandId = id) :
    (db.ofProvider paypal).executionAttempts.filter q = db.executionAttempts.filter q := by
  refine Table.filter_filter_of_imp fun a ha hrow => ?_
  exact source_of_key a.commandId.paymentAttemptId (h.executionAttempts a ha) (by simp)
    (hq a hrow ▸ hid)

theorem observations_ofProvider (h : FiledRows policy db) {id : CommandId}
    (hid : hasPaypalPrefix id.paymentAttemptId = paypal) {q : PaymentOutcomeObservation → Bool}
    (hq : ∀ o, q o = true → o.commandId = id) :
    (db.ofProvider paypal).observations.filter q = db.observations.filter q := by
  refine Table.filter_filter_of_imp fun o ho hrow => ?_
  exact source_of_key o.commandId.paymentAttemptId (h.observations o ho) (by simp)
    (hq o hrow ▸ hid)

theorem getDecision_ofProvider (h : FiledRows policy db) {id : DecisionId}
    (hid : hasPaypalPrefix id.paymentAttemptId = paypal) :
    getDecision (db.ofProvider paypal) id = getDecision db id := by
  refine Table.find?_filter_of_imp fun d hd hrow => ?_
  exact source_of_key d.decisionId.paymentAttemptId ((h.decisions d hd).imp fun _ h => h.1) (by simp)
    (of_decide_eq_true hrow ▸ hid)

theorem getPrediction_ofProvider (h : FiledRows policy db) {id : PredictionId}
    (hid : hasPaypalPrefix id.paymentAttemptId = paypal) :
    getPrediction (db.ofProvider paypal) id = getPrediction db id := by
  refine Table.find?_filter_of_imp fun p hp hrow => ?_
  exact source_of_key p.predictionId.paymentAttemptId (h.predictions p hp) (by simp)
    (of_decide_eq_true hrow ▸ hid)

theorem getAttributionByAsOf_ofProvider (h : FiledRows policy db) {id : CommandId}
    (hid : hasPaypalPrefix id.paymentAttemptId = paypal) (asOf : Time) :
    getAttributionByAsOf (db.ofProvider paypal) id asOf = getAttributionByAsOf db id asOf := by
  refine Table.find?_filter_of_imp fun a ha hrow => ?_
  exact source_of_key a.commandId.paymentAttemptId (h.attributions a ha) (by simp)
    ((of_decide_eq_true hrow).1 ▸ hid)

theorem getLatestAttribution_ofProvider (h : FiledRows policy db) {id : CommandId}
    (hid : hasPaypalPrefix id.paymentAttemptId = paypal) :
    getLatestAttribution (db.ofProvider paypal) id = getLatestAttribution db id := by
  refine congrArg _ (Table.filter_filter_of_imp fun a ha hrow => ?_)
  exact source_of_key a.commandId.paymentAttemptId (h.attributions a ha) (by simp)
    (of_decide_eq_true hrow ▸ hid)

end Rows

/-! ## Events -/

section Events
variable {paypal : Bool} {sourceSystem paymentAttemptId : String} {r : Reads} {e : PaymentEvent}

theorem PaymentEvent.isPaypal_of_inRazorpayPipeline (h : e.inRazorpayPipeline = true) :
    e.isPaypal = false := by
  simpa [inRazorpayPipeline, nonRazorpayPipelineSources, isPaypal] using h

theorem isPaypal_of_isTriggerOf (h : isTriggerOf paymentAttemptId e = true) :
    e.isPaypal = (paypalOrderId paymentAttemptId).isSome := by
  unfold isTriggerOf at h
  split at h
  · rename_i horder
    simp only [isPaypalTrigger, Bool.and_eq_true] at h
    rw [horder, h.1.1, Option.isSome_some]
  · rename_i horder
    simp only [Bool.and_eq_true] at h
    rw [horder, PaymentEvent.isPaypal_of_inRazorpayPipeline h.2, Option.isSome_none]

theorem isPaypal_of_isTerminalOf (h : isTerminalOf paymentAttemptId e = true) :
    e.isPaypal = (paypalOrderId paymentAttemptId).isSome := by
  unfold isTerminalOf at h
  split at h
  · rename_i horder
    simp only [isPaypalTerminal, Bool.and_eq_true] at h
    rw [horder, h.1.1, Option.isSome_some]
  · rename_i horder
    simp only [Bool.and_eq_true] at h
    rw [horder, PaymentEvent.isPaypal_of_inRazorpayPipeline h.2, Option.isSome_none]

theorem isPaypal_of_isTriggerFrom (h : isTriggerFrom sourceSystem paymentAttemptId e = true) :
    e.isPaypal = isPaypalSource sourceSystem := by
  unfold isTriggerFrom at h
  split at h
  · rename_i hsource
    subst hsource
    split at h
    · simp only [isPaypalTrigger, Bool.and_eq_true] at h
      exact h.1.1
    · cases h
  · simp only [Bool.and_eq_true, beq_iff_eq] at h
    rw [PaymentEvent.isPaypal, isPaypalSource, h.2]

theorem isPaypal_of_isTerminalFrom (h : isTerminalFrom sourceSystem paymentAttemptId e = true) :
    e.isPaypal = isPaypalSource sourceSystem := by
  unfold isTerminalFrom at h
  split at h
  · rename_i hsource
    subst hsource
    split at h
    · simp only [isPaypalTerminal, Bool.and_eq_true] at h
      exact h.1.1
    · cases h
  · simp only [Bool.and_eq_true, beq_iff_eq] at h
    rw [PaymentEvent.isPaypal, isPaypalSource, h.2]

theorem isPaypal_of_isTerminalBefore
    (h : isTerminalBefore sourceSystem paymentAttemptId e = true) :
    e.isPaypal = isPaypalSource sourceSystem := by
  unfold isTerminalBefore at h
  split at h
  · rename_i hsource
    subst hsource
    simp only [isPaypalTerminal, Bool.and_eq_true] at h
    exact h.1.1
  · simp only [Bool.and_eq_true, beq_iff_eq] at h
    rw [PaymentEvent.isPaypal, isPaypalSource, h.2]

theorem isPaypal_of_countedInRate {column : PaymentEvent → Option String} {value : String}
    {t : Time} {minutes : ℤ} (h : countedInRate column value t minutes paypal e = true) :
    e.isPaypal = paypal := by
  simp only [countedInRate, Bool.and_eq_true] at h
  cases paypal
  · exact PaymentEvent.isPaypal_of_inRazorpayPipeline (by simpa using h.2)
  · simpa using h.2

/-- A statement that reads events of the provider only reads them among its rows. -/
theorem rows_events_ofProvider {k : ℕ} {q : PaymentEvent → Bool}
    (hq : ∀ e, q e = true → e.isPaypal = paypal) :
    (r.ofProvider paypal).rows k (·.events) q = r.rows k (·.events) q :=
  congrArg (Table.scan (r.order k)) (Table.filter_filter_of_imp fun e _ hrow => by simp [hq e hrow])

theorem getPaymentEventById_ofProvider (horder : (paypalOrderId paymentAttemptId).isSome = paypal)
    (t : Time) : getPaymentEventById (r.ofProvider paypal) paymentAttemptId t =
      getPaymentEventById r paymentAttemptId t := by
  unfold getPaymentEventById
  rw [rows_events_ofProvider fun e he => ?_]
  simp only [Bool.and_eq_true] at he
  rw [isPaypal_of_isTriggerOf he.1, horder]

theorem getCanonicalTerminalEvents_ofProvider (hsource : isPaypalSource sourceSystem = paypal)
    (k : ℕ) (asOf : Time) :
    getCanonicalTerminalEvents (r.ofProvider paypal) k sourceSystem paymentAttemptId asOf =
      getCanonicalTerminalEvents r k sourceSystem paymentAttemptId asOf := by
  unfold getCanonicalTerminalEvents
  rw [rows_events_ofProvider fun e he => ?_]
  simp only [Bool.and_eq_true] at he
  rw [isPaypal_of_isTerminalFrom he.1, hsource]

theorem getCanonicalPaymentAmount_ofProvider (hsource : isPaypalSource sourceSystem = paypal)
    (k : ℕ) (asOf : Time) :
    getCanonicalPaymentAmount (r.ofProvider paypal) k sourceSystem paymentAttemptId asOf =
      getCanonicalPaymentAmount r k sourceSystem paymentAttemptId asOf := by
  unfold getCanonicalPaymentAmount
  rw [rows_events_ofProvider fun e he => ?_]
  simp only [Bool.and_eq_true] at he
  rw [isPaypal_of_isTriggerFrom he.1, hsource]

theorem checkTerminalEventExistsBefore_ofProvider
    (horder : (paypalOrderId paymentAttemptId).isSome = paypal) (db : Database) (asOf : Time) :
    checkTerminalEventExistsBefore (db.ofProvider paypal) paymentAttemptId asOf =
      checkTerminalEventExistsBefore db paymentAttemptId asOf := by
  refine Table.any_filter_of_imp fun e _ he => ?_
  simp only [Bool.and_eq_true] at he
  rw [isPaypal_of_isTerminalOf he.1, horder]
  exact beq_self_eq_true paypal

/-- The terminal events Stages 5 and 6 look for are the provider's. -/
theorem terminalBefore_ofProvider (hsource : isPaypalSource sourceSystem = paypal)
    (db : Database) (t : Time) :
    ((db.ofProvider paypal).events.any fun e =>
        isTerminalBefore sourceSystem paymentAttemptId e && e.ingestedAt < t) =
      db.events.any fun e =>
        isTerminalBefore sourceSystem paymentAttemptId e && e.ingestedAt < t := by
  refine Table.any_filter_of_imp fun e _ he => ?_
  simp only [Bool.and_eq_true] at he
  rw [isPaypal_of_isTerminalBefore he.1, hsource]
  exact beq_self_eq_true paypal

theorem isEligibleForPrediction_ofProvider {ref : AttemptRef}
    (hsource : isPaypalSource ref.sourceSystem = paypal) (t : Time) :
    isEligibleForPrediction (r.ofProvider paypal) ref t = isEligibleForPrediction r ref t :=
  congrArg (!·) (terminalBefore_ofProvider hsource (r.db 0) t)

theorem checkTerminalEventExists_ofProvider {ref : AttemptRef}
    (hsource : isPaypalSource ref.sourceSystem = paypal) (t : Time) :
    checkTerminalEventExists (r.ofProvider paypal) ref t = checkTerminalEventExists r ref t :=
  terminalBefore_ofProvider hsource (r.db 0) t

theorem calculateRate_ofProvider (column : PaymentEvent → Option String) (value : String)
    (t : Time) (minutes : ℤ) (dimension : String) :
    calculateRate (r.ofProvider paypal) column value t minutes dimension paypal =
      calculateRate r column value t minutes dimension paypal := by
  have hrows : (((r.db 0).ofProvider paypal).events.filter
      (countedInRate column value t minutes paypal)) =
        (r.db 0).events.filter (countedInRate column value t minutes paypal) :=
    Table.filter_filter_of_imp fun e _ he => by simp [isPaypal_of_countedInRate he]
  unfold calculateRate getHistoricalFailureRate
  rw [Reads.db_ofProvider, hrows]

theorem attributeRate_ofProvider (column : PaymentEvent → Option String) (auth : PaymentEvent)
    (t : Time) (minutes : ℤ) (dimension : String) :
    attributeRate (r.ofProvider paypal) column auth t minutes dimension paypal =
      attributeRate r column auth t minutes dimension paypal := by
  unfold attributeRate
  simp only [calculateRate_ofProvider]

/-- A payment of PayPal has no degradation context, and every other one reads the tables of
Stages 2-4. -/
theorem degradationContext_ofProvider {auth : PaymentEvent} (hauth : auth.isPaypal = paypal)
    (t : Time) : degradationContext (r.ofProvider paypal) auth t = degradationContext r auth t := by
  cases paypal with
  | false => rfl
  | true =>
      have hnone : ∀ r : Reads, degradationContext r auth t = ⟨none, none⟩ := by
        intro r
        simp [degradationContext, getMostSevereActiveEpisode, activeEpisodes, hauth, Table.latestBy]
      rw [hnone, hnone]

theorem isPaypal_of_getPaymentEventById {t : Time}
    (h : getPaymentEventById r paymentAttemptId t = some e) :
    e ∈ (r.db 0).events ∧ e.isPaypal = (paypalOrderId paymentAttemptId).isSome := by
  obtain ⟨hmem, hrow⟩ := Reads.mem_rows.mp (Table.latestBy_mem h)
  simp only [Bool.and_eq_true] at hrow
  exact ⟨hmem, isPaypal_of_isTriggerOf hrow.1⟩

theorem reconstructFeatures_ofProvider
    (horder : (paypalOrderId paymentAttemptId).isSome = paypal) (t : Time) :
    reconstructFeatures (r.ofProvider paypal) paymentAttemptId t =
      reconstructFeatures r paymentAttemptId t := by
  unfold reconstructFeatures
  rw [getPaymentEventById_ofProvider horder]
  cases hauth : getPaymentEventById r paymentAttemptId t with
  | none => rfl
  | some auth =>
      have hpaypal : auth.isPaypal = paypal :=
        (isPaypal_of_getPaymentEventById hauth).2.trans horder
      simp only [Option.map_some, horder, Reads.shift_ofProvider, calculateRate_ofProvider,
        attributeRate_ofProvider, degradationContext_ofProvider hpaypal]

end Events

/-! ## Predictions and decisions -/

section Attempts
variable {policy : InterventionPolicy} {paypal : Bool} {r : Reads} {ref : AttemptRef}
  {db : Database} {ctx : DecisionContext}

theorem AttemptRef.own (hsource : isPaypalSource ref.sourceSystem = paypal) :
    OwnAttempt paypal ref.sourceSystem ref.paymentAttemptId := hsource ▸ ref.ownAttempt

theorem predictionInputs_ofProvider (hsource : isPaypalSource ref.sourceSystem = paypal) (t : Time) :
    predictionInputs (r.ofProvider paypal) ref t = predictionInputs r ref t := by
  unfold predictionInputs
  rw [isEligibleForPrediction_ofProvider hsource, Reads.shift_ofProvider,
    reconstructFeatures_ofProvider (AttemptRef.own hsource).order]

theorem orchestratePrediction_ofProvider (hdb : ∀ k, FiledRows policy (r.db k))
    (hsource : isPaypalSource ref.sourceSystem = paypal) (model : FailurePredictionModel)
    (t : Time) : orchestratePrediction model (r.ofProvider paypal) ref t =
      orchestratePrediction model r ref t := by
  unfold orchestratePrediction getLatestPrediction
  simp only [Reads.db_ofProvider, Reads.shift_ofProvider, predictionInputs_ofProvider hsource,
    require_ofProvider (hdb 0) (AttemptRef.own hsource).key, attemptPredictions_ofProvider hsource]

theorem newPrediction_ofProvider (hsource : isPaypalSource ref.sourceSystem = paypal)
    (model : FailurePredictionModel) (t : Time)
    (inputs : PredictionStatus × Option FeatureSnapshot) :
    newPrediction model (db.ofProvider paypal) ref t inputs = newPrediction model db ref t inputs := by
  unfold newPrediction
  rw [attemptPredictions_ofProvider hsource]

theorem storedDecision_ofProvider (hsource : isPaypalSource ctx.ref.sourceSystem = paypal) :
    storedDecision policy (db.ofProvider paypal) ctx = storedDecision policy db ctx := by
  unfold storedDecision getLatestDecision
  rw [attemptDecisions_ofProvider hsource]

theorem decisionContext_ofProvider (hdb : ∀ k, FiledRows policy (r.db k))
    (hsource : isPaypalSource ref.sourceSystem = paypal) (t : Time) :
    decisionContext (r.ofProvider paypal) ref t = decisionContext r ref t := by
  have hown := AttemptRef.own hsource
  unfold decisionContext getStage5PredictionAsOf
  simp only [Reads.db_ofProvider, Reads.shift_ofProvider, require_ofProvider (hdb 0) hown.key,
    getPaymentEventById_ofProvider hown.order, checkTerminalEventExists_ofProvider hsource,
    attemptPredictions_ofProvider hsource]
  cases hauth : getPaymentEventById (r.shift 1) ref.paymentAttemptId t with
  | none => rfl
  | some auth =>
      have hpaypal : auth.isPaypal = paypal :=
        (isPaypal_of_getPaymentEventById hauth).2.trans hown.order
      simp only [Option.elim_some, degradationContext_ofProvider hpaypal]

theorem decideUpstream_ofProvider (hdb : ∀ k, FiledRows policy (r.db k))
    (hsource : isPaypalSource ref.sourceSystem = paypal) (t : Time) :
    decideUpstream policy (r.ofProvider paypal) ref t = decideUpstream policy r ref t := by
  unfold decideUpstream
  rw [decisionContext_ofProvider hdb hsource, Reads.db_ofProvider]
  cases hctx : decisionContext r ref t with
  | error e => rfl
  | ok ctx =>
      have href : ctx.ref = ref := by
        unfold decisionContext at hctx
        cases hreq : (r.db 0).require ref with
        | error e => simp [hreq, bind, Except.bind] at hctx
        | ok row =>
            simp only [hreq, bind, Except.bind, pure, Except.pure, Except.ok.injEq] at hctx
            exact hctx ▸ rfl
      have hstored : storedDecision policy ((r.db 16).ofProvider paypal) ctx =
          storedDecision policy (r.db 16) ctx := storedDecision_ofProvider (href ▸ hsource)
      simp only [bind, Except.bind, hstored]

theorem cooldowns_ofProvider (hsource : isPaypalSource ctx.ref.sourceSystem = paypal)
    (key : InterventionRouteKey) :
    cooldowns policy (r.ofProvider paypal) ctx key = cooldowns policy r ctx key := by
  have hrecent : ∀ db since, hasRecentRouteDecision (db.ofProvider paypal) ctx.ref key since =
      hasRecentRouteDecision db ctx.ref key since := by
    intro db since
    refine Table.any_filter_of_imp fun d _ hd => ?_
    simp only [Bool.and_eq_true, beq_iff_eq] at hd
    rw [hd.2, hsource]
    exact beq_self_eq_true paypal
  unfold cooldowns
  simp only [Reads.db_ofProvider, hrecent]

theorem newDecision_ofProvider (hsource : isPaypalSource ctx.ref.sourceSystem = paypal)
    (verdict : Verdict) : newDecision policy (db.ofProvider paypal) ctx verdict =
      newDecision policy db ctx verdict := by
  unfold newDecision
  rw [attemptDecisions_ofProvider hsource]

theorem decideLocked_ofProvider (hsource : isPaypalSource ctx.ref.sourceSystem = paypal) :
    decideLocked policy (r.ofProvider paypal) ctx = decideLocked policy r ctx := by
  have hcooldowns : cooldowns policy ((r.shift 1).ofProvider paypal) ctx =
      cooldowns policy (r.shift 1) ctx := funext (cooldowns_ofProvider hsource)
  unfold decideLocked
  simp only [Reads.db_ofProvider, Reads.shift_ofProvider, storedDecision_ofProvider hsource,
    hcooldowns, newDecision_ofProvider hsource]

/-- The rate limit is not of one provider, but only decisions of others than PayPal act. -/
theorem countRecentActDecisions_ofProvider (hdb : FiledRows policy db) (since : Time) :
    countRecentActDecisions (db.ofProvider false) since = countRecentActDecisions db since := by
  unfold countRecentActDecisions
  rw [List.countP_eq_length_filter, List.countP_eq_length_filter]
  refine congrArg List.length (Table.filter_filter_of_imp fun d hd hrow => ?_)
  obtain ⟨b, hfiled, -, hact⟩ := hdb.decisions d hd
  have hact' : d.decisionType = .act := (of_decide_eq_true hrow).1
  cases b with
  | false => rw [hfiled.1]; rfl
  | true => exact absurd hact' (hact rfl)

theorem decideAdmitted_ofProvider (hdb : ∀ k, FiledRows policy (r.db k))
    (hsource : isPaypalSource ctx.ref.sourceSystem = false) (verdict : Verdict) :
    decideAdmitted policy (r.ofProvider false) ctx verdict = decideAdmitted policy r ctx verdict := by
  unfold decideAdmitted
  rw [Reads.db_ofProvider, Reads.db_ofProvider, countRecentActDecisions_ofProvider (hdb 0),
    newDecision_ofProvider hsource]

/-- Costs in another currency make every route ineligible, so there is no `ACT`. -/
theorem tentativeVerdict_ne_act {onCooldown : InterventionRouteKey → Bool}
    (h : ctx.currency ≠ policy.costCurrency) :
    (tentativeVerdict policy ctx onCooldown).decisionType ≠ .act := by
  have hnone : rankedCandidates policy ctx onCooldown = [] := by
    have hroutes : (policy.routes.map (scoreRoute policy ctx onCooldown)).filter
        (·.eligibility = .eligible) = [] := by
      rw [List.filter_eq_nil_iff]
      intro score hscore
      obtain ⟨route, -, rfl⟩ := List.mem_map.mp hscore
      simp [scoreRoute, evaluatePolicyCostCurrency, h]
    rw [rankedCandidates, hroutes]
    rfl
  unfold tentativeVerdict
  split
  · simp [Verdict.blocked]
  · simp only [hnone, List.head?_nil]
    split
    · simp [Verdict.blocked]
    · unfold determineVerdict riskVerdict
      dsimp only
      split <;> simp

end Attempts

/-! ## Commands -/

section Commands
variable {policy : InterventionPolicy} {paypal : Bool} {r : Reads} {db : Database} {id : CommandId}

/-- A key that a row names tells whose all its keys are. -/
theorem FiledUnder.own {sourceSystem : String} {keys : List String} (key : String)
    (h : ∃ b, FiledUnder b sourceSystem keys) (hmem : key ∈ keys)
    (hkey : hasPaypalPrefix key = paypal) : FiledUnder paypal sourceSystem keys := by
  obtain ⟨b, hfiled⟩ := h
  obtain rfl : b = paypal := (hfiled.2 key hmem).symm.trans hkey
  exact hfiled

theorem filed_of_getCommandById (hdb : FiledRows policy db)
    (hid : hasPaypalPrefix id.paymentAttemptId = paypal) {cmd : InterventionCommand}
    (h : db.getCommandById id = some cmd) : (Write.insertCommand cmd).Filed policy paypal := by
  have hcmd : cmd.commandId = id := by simpa using List.find?_some h
  exact FiledUnder.own cmd.commandId.paymentAttemptId
    (hdb.commands cmd (List.mem_of_find?_eq_some h)) (by simp) (hcmd ▸ hid)

theorem createCommand_ofProvider (hdb : ∀ k, FiledRows policy (r.db k)) {d : InterventionDecision}
    (hd : (Write.appendDecision d).Filed policy paypal) (expiresInSeconds : ℤ) (t : Time) :
    createCommand (r.ofProvider paypal) d expiresInSeconds t =
      createCommand r d expiresInSeconds t := by
  unfold createCommand
  simp only [Reads.db_ofProvider, requireKey_ofProvider (hdb 0) (hd.1.2 d.paymentAttemptId (by simp)),
    commandByDecision_ofProvider (hdb 1) (hd.1.2 d.decisionId.paymentAttemptId (by simp)),
    getCommandByAttemptAndVersion_ofProvider hd.1.1]

theorem executeCheck_ofProvider (hdb : ∀ k, FiledRows policy (r.db k))
    (hid : hasPaypalPrefix id.paymentAttemptId = paypal) (t : Time) :
    executeCheck (r.ofProvider paypal) id t = executeCheck r id t := by
  unfold executeCheck
  simp only [Reads.db_ofProvider, getCommandById_ofProvider (hdb 0) hid]
  cases hcmd : (r.db 0).getCommandById id with
  | none => rfl
  | some cmd =>
      have hfiled := filed_of_getCommandById (hdb 0) hid hcmd
      have hkey := hfiled.2 cmd.paymentAttemptId (by simp)
      simp only [requireKey_ofProvider (hdb 1) hkey]
      cases hreq : (r.db 1).requireKey cmd.sourceSystem cmd.paymentAttemptId with
      | error e => rfl
      | ok row => simp only [checkTerminalEventExistsBefore_ofProvider
          (ownAttempt_of_requireKey hreq hkey).order]

theorem newExecutionAttempt_ofProvider (hdb : FiledRows policy db) {cmd : InterventionCommand}
    (hcmd : hasPaypalPrefix cmd.commandId.paymentAttemptId = paypal) (t : Time)
    (result : ExecutionResult) : newExecutionAttempt (db.ofProvider paypal) cmd t result =
      newExecutionAttempt db cmd t result := by
  unfold newExecutionAttempt
  rw [executionAttempts_ofProvider hdb hcmd fun a ha => of_decide_eq_true ha]

theorem newObservation_ofProvider (hdb : ∀ k, FiledRows policy (r.db k)) {cmd : InterventionCommand}
    (hcmd : (Write.insertCommand cmd).Filed policy paypal) (asOf : Time) :
    newObservation (r.ofProvider paypal) cmd asOf = newObservation r cmd asOf := by
  unfold newObservation
  rw [getCanonicalTerminalEvents_ofProvider hcmd.1, Reads.db_ofProvider,
    observations_ofProvider (hdb 1) (hcmd.2 cmd.commandId.paymentAttemptId (by simp))
      fun o ho => of_decide_eq_true ho]

theorem observe_ofProvider (hdb : ∀ k, FiledRows policy (r.db k))
    (hid : hasPaypalPrefix id.paymentAttemptId = paypal) (asOf : Time) :
    observe (r.ofProvider paypal) id asOf = observe r id asOf := by
  unfold observe
  simp only [Reads.db_ofProvider, getCommandById_ofProvider (hdb 0) hid]
  cases hcmd : (r.db 0).getCommandById id with
  | none => rfl
  | some cmd =>
      have hfiled := filed_of_getCommandById (hdb 0) hid hcmd
      have hnew : newObservation ((r.shift 2).ofProvider paypal) cmd asOf =
          newObservation (r.shift 2) cmd asOf :=
        newObservation_ofProvider (fun k => hdb (2 + k)) hfiled asOf
      simp only [requireKey_ofProvider (hdb 1) (hfiled.2 cmd.paymentAttemptId (by simp)),
        Reads.shift_ofProvider, hnew]

theorem readUpstream_ofProvider (hdb : ∀ k, FiledRows policy (r.db k))
    (hid : hasPaypalPrefix id.paymentAttemptId = paypal) (asOf : Time) :
    readUpstream (r.ofProvider paypal) id asOf = readUpstream r id asOf := by
  have hattempt : getLatestExecutionAttempt ((r.db 1).ofProvider paypal) id asOf =
      getLatestExecutionAttempt (r.db 1) id asOf :=
    congrArg _ (executionAttempts_ofProvider (hdb 1) hid fun a ha => (of_decide_eq_true ha).1)
  have hobservation : getLatestOutcomeObservation ((r.db 2).ofProvider paypal) id asOf =
      getLatestOutcomeObservation (r.db 2) id asOf :=
    congrArg _ (observations_ofProvider (hdb 2) hid fun o ho => (of_decide_eq_true ho).1)
  unfold readUpstream
  simp only [Reads.db_ofProvider, getCommandById_ofProvider (hdb 0) hid, hattempt, hobservation]
  cases hcmd : (r.db 0).getCommandById id with
  | none => rfl
  | some cmd =>
      have hfiled := filed_of_getCommandById (hdb 0) hid hcmd
      simp only [getDecision_ofProvider (hdb 3) (hfiled.2 cmd.decisionId.paymentAttemptId (by simp)),
        requireKey_ofProvider (hdb 5) (hfiled.2 cmd.paymentAttemptId (by simp)),
        getCanonicalPaymentAmount_ofProvider hfiled.1]
      cases hd : getDecision (r.db 3) cmd.decisionId with
      | none => rfl
      | some d =>
          have hmem : d ∈ (r.db 3).decisions := List.mem_of_find?_eq_some hd
          have hdid : d.decisionId = cmd.decisionId := by simpa using List.find?_some hd
          obtain ⟨b, hrow, hprediction, -⟩ := (hdb 3).decisions d hmem
          obtain rfl : b = paypal := by
            rw [← hrow.2 d.decisionId.paymentAttemptId (by simp), hdid]
            exact hfiled.2 cmd.decisionId.paymentAttemptId (by simp)
          have hp : d.stage5PredictionId.bind (getPrediction ((r.db 4).ofProvider b)) =
              d.stage5PredictionId.bind (getPrediction (r.db 4)) := by
            cases hpid : d.stage5PredictionId with
            | none => rfl
            | some pid => exact getPrediction_ofProvider (hdb 4) (hprediction pid hpid)
          simp only [hp]

theorem checkCommandProvider_ofProvider (hdb : FiledRows policy db)
    {a : CounterfactualAttribution} (ha : hasPaypalPrefix a.commandId.paymentAttemptId = paypal) :
    checkCommandProvider (db.ofProvider paypal) a = checkCommandProvider db a := by
  unfold checkCommandProvider
  rw [getCommandById_ofProvider hdb ha]

theorem attributePaymentIntervention_ofProvider (hdb : ∀ k, FiledRows policy (r.db k))
    (hid : hasPaypalPrefix id.paymentAttemptId = paypal) (asOf : Time) :
    attributePaymentIntervention (r.ofProvider paypal) id asOf =
      attributePaymentIntervention r id asOf := by
  have hupstream : readUpstream ((r.shift 4).ofProvider paypal) id asOf =
      readUpstream (r.shift 4) id asOf := readUpstream_ofProvider (fun k => hdb (4 + k)) hid asOf
  unfold attributePaymentIntervention
  simp only [Reads.db_ofProvider, Reads.shift_ofProvider,
    getAttributionByAsOf_ofProvider (hdb 0) hid, getLatestAttribution_ofProvider (hdb 2) hid,
    hupstream]
  cases hold : getAttributionByAsOf (r.db 0) id asOf with
  | some existing =>
      have hexisting : existing.commandId = id :=
        (by simpa using List.find?_some hold : existing.commandId = id ∧ _).1
      simp only [checkCommandProvider_ofProvider (hdb 1) (hexisting ▸ hid)]
  | none =>
      cases hlatest : getLatestAttribution (r.db 2) id with
      | none => rfl
      | some a =>
          have hmem := Table.latestBy_mem hlatest
          have ha : a.commandId = id := of_decide_eq_true (List.mem_filter.mp hmem).2
          simp only [checkCommandProvider_ofProvider (hdb 3) (ha ▸ hid)]

end Commands

end RevenueRecovery
