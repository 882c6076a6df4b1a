import RevenueRecovery.Ingestion.Containment

/-!
# Stage 1: the pipeline role of a PayPal event

The parser, the normalizer and the identity of an attempt fit together: an accepted PayPal
payload becomes an event that is never refused, starts the attempt of its order when it is
an approval, resolves the attempt of its related order when it is a completed or declined
capture, and has no role otherwise.

## Main definitions
* `Json.textAt` : the text at a path of members.
* `Approves`, `Resolves` : the payloads that start and resolve the attempt of an order.
* `RoleOf` : a canonical event has the role of its payload.
-/
namespace RevenueRecovery

open Json

/-- The text at a path of members. -/
def Json.textAt : List String → Json → Option String
  | [], j => j.strictStr
  | name :: path, j => (j.get? name).bind (textAt path)

/-- The related order of a capture. -/
def relatedOrderPath : List String := ["supplementary_data", "related_ids", "order_id"]

/-- The payload is an approval of the order. -/
def Approves (payload : Json) (orderId : String) : Prop :=
  payload.textAt ["event_type"] = some "CHECKOUT.ORDER.APPROVED" ∧
    payload.textAt ["resource", "id"] = some orderId

/-- The payload is a completed or declined capture of the order. -/
def Resolves (payload : Json) (orderId : String) : Prop :=
  (payload.textAt ["event_type"] = some "PAYMENT.CAPTURE.COMPLETED" ∨
    payload.textAt ["event_type"] = some "PAYMENT.CAPTURE.DECLINED") ∧
    payload.textAt ("resource" :: relatedOrderPath) = some orderId

/-- The event of a payload is not refused, starts and resolves the attempts of the orders
that the payload approves and resolves, and no other. -/
structure RoleOf (payload : Json) (e : PaymentEvent) : Prop where
  not_refused : pipelineAttemptRefusal e = none
  trigger_iff : (∃ ref, resolvePipelineAttempt e = some ⟨.trigger, ref⟩) ↔
    payload.textAt ["event_type"] = some "CHECKOUT.ORDER.APPROVED"
  trigger_key : ∀ ref, resolvePipelineAttempt e = some ⟨.trigger, ref⟩ →
    ∃ orderId, Approves payload orderId ∧ ref.paymentAttemptId = "paypal-order:" ++ orderId
  terminal_iff : (∃ ref, resolvePipelineAttempt e = some ⟨.terminal, ref⟩) ↔
    ∃ orderId, Resolves payload orderId
  terminal_key : ∀ ref, resolvePipelineAttempt e = some ⟨.terminal, ref⟩ →
    ∃ orderId, Resolves payload orderId ∧ ref.paymentAttemptId = "paypal-order:" ++ orderId
  for_trigger : ∀ ref, resolvePipelineAttempt e = some ⟨.trigger, ref⟩ →
    AttemptRef.forTriggerEvent e = .ok ref

/-! ## Validated fields -/

section Fields
variable {α : Type} {name : String} {path : List String} {j : Json}

/-- An optional field is absent, or `null`, or valid. -/
theorem optional_eq_some {validate : Json → Option α} {x : Option α}
    (h : Json.optional name validate j = some x) :
    ((j.get? name = none ∨ j.get? name = some .null) ∧ x = none) ∨
      ∃ v y, j.get? name = some v ∧ validate v = some y ∧ x = some y := by
  unfold Json.optional at h
  split at h
  · cases h
    exact .inl ⟨.inl ‹_›, rfl⟩
  · cases h
    exact .inl ⟨.inr ‹_›, rfl⟩
  · rename_i v _ hv
    obtain ⟨y, hy, rfl⟩ := Option.map_eq_some_iff.mp h
    exact .inr ⟨_, y, hv, hy, rfl⟩

theorem textAt_null (path : List String) : Json.null.textAt path = none := by
  cases path <;> rfl

theorem textAt_cons_none (h : j.get? name = none ∨ j.get? name = some .null) :
    j.textAt (name :: path) = none := by
  rw [Json.textAt]
  rcases h with h | h
  · rw [h]
    rfl
  · rw [h, Option.bind_some, textAt_null]

theorem textAt_cons_some {v : Json} (h : j.get? name = some v) :
    j.textAt (name :: path) = v.textAt path := by
  rw [Json.textAt, h, Option.bind_some]

/-- An identifier is the text that is there. -/
theorem validateIdentifier_eq_some {id : String} (h : validateIdentifier j = some id) :
    j.textAt [] = some id ∧ matchesPaypalIdentifier id = true :=
  Option.filter_eq_some_iff.mp h

/-- A text that a validator finds at a path, below an optional member. -/
theorem optional_textAt {validate : Json → Option (Option String)} {x : Option (Option String)}
    (hvalid : ∀ v y, validate v = some y → y = v.textAt path ∧
      ∀ id, y = some id → matchesPaypalIdentifier id = true)
    (h : Json.optional name validate j = some x) :
    x.join = j.textAt (name :: path) ∧
      ∀ id, x.join = some id → matchesPaypalIdentifier id = true := by
  rcases optional_eq_some h with ⟨hnone, rfl⟩ | ⟨v, y, hv, hy, rfl⟩
  · exact ⟨(textAt_cons_none hnone).symm, by simp⟩
  · rw [textAt_cons_some hv]
    exact hvalid v y hy

theorem validatePayPalRelatedIds_order {order : Option String}
    (h : validatePayPalRelatedIds j = some order) : order = j.textAt ["order_id"] ∧
      ∀ id, order = some id → matchesPaypalIdentifier id = true := by
  unfold validatePayPalRelatedIds at h
  split at h
  · rcases optional_eq_some h with ⟨hnone, rfl⟩ | ⟨v, id, hv, hid, rfl⟩
    · exact ⟨(textAt_cons_none hnone).symm, by simp⟩
    · obtain ⟨htext, hmatch⟩ := validateIdentifier_eq_some hid
      refine ⟨by rw [textAt_cons_some hv, htext], fun id' h => ?_⟩
      cases h
      exact hmatch
  · cases h

theorem validatePayPalSupplementaryData_order {order : Option String}
    (h : validatePayPalSupplementaryData j = some order) :
    order = j.textAt ["related_ids", "order_id"] ∧
      ∀ id, order = some id → matchesPaypalIdentifier id = true := by
  unfold validatePayPalSupplementaryData at h
  split at h
  · obtain ⟨related, hrelated, rfl⟩ := Option.map_eq_some_iff.mp h
    exact optional_textAt (fun _ _ => validatePayPalRelatedIds_order) hrelated
  · cases h

end Fields

/-! ## Validated resources -/

section Resources
variable {j : Json} {resource : ValidatedResource}

/-- The order id that an event of the resource carries: its own for an order, and the related
one of a capture or a refund. -/
def ValidatedResource.orderId : ValidatedResource → Option String
  | .capture _ _ _ _ orderId | .refund _ _ _ _ orderId => orderId
  | .order id _ _ => some id

/-- The path of the order id in a resource. -/
def PayPalResourceModel.orderPath : PayPalResourceModel → List String
  | .capture | .refund => relatedOrderPath
  | .order => ["id"]

/-- The model a validated resource is of. -/
def ValidatedResource.model : ValidatedResource → PayPalResourceModel
  | .capture .. => .capture
  | .refund .. => .refund
  | .order .. => .order

/-- A resource carries the order id of its payload, which is an identifier. -/
theorem validatePayPalResource_orderId {model : PayPalResourceModel}
    (h : validatePayPalResource model j = some resource) :
    resource.model = model ∧ resource.orderId = j.textAt model.orderPath ∧
      ∀ id, resource.orderId = some id → matchesPaypalIdentifier id = true := by
  simp only [validatePayPalResource, Option.bind_eq_bind, Option.bind_eq_some_iff] at h
  obtain ⟨id, hid, status, -, h⟩ := h
  cases model with
  | capture =>
      simp only [Option.bind_eq_some_iff, Option.pure_def, Option.some.injEq] at h
      obtain ⟨amount, -, details, -, related, hrelated, rfl⟩ := h
      exact ⟨rfl, optional_textAt (fun _ _ => validatePayPalSupplementaryData_order) hrelated⟩
  | refund =>
      simp only [Option.bind_eq_some_iff, Option.pure_def, Option.some.injEq] at h
      obtain ⟨amount, -, links, -, related, hrelated, rfl⟩ := h
      exact ⟨rfl, optional_textAt (fun _ _ => validatePayPalSupplementaryData_order) hrelated⟩
  | order =>
      simp only [Option.bind_eq_some_iff] at h
      obtain ⟨units, -, h⟩ := h
      obtain ⟨v, hv, hvalue⟩ := Option.bind_eq_some_iff.mp hid
      obtain ⟨htext, hmatch⟩ := validateIdentifier_eq_some hvalue
      split at h
      · cases h
      · cases h
        refine ⟨rfl, ?_, fun id' h => ?_⟩
        · exact (textAt_cons_some hv).trans htext |>.symm
        · cases h
          exact hmatch

end Resources

/-! ## Accepted payloads -/

section Accepted
variable {urlparse : String → Option SplitUrl} {payload : Json} {parsed : PayPalWebhookEvent}
  {python : PythonLibrary} {eventId : ℕ} {now : Time} {e : PaymentEvent}

/-- The envelope repeats the event type and the resource of its payload. -/
theorem validatePayPalEnvelope_textAt {envelope : PayPalEnvelope}
    (h : validatePayPalEnvelope payload = some envelope) :
    payload.textAt ["event_type"] = some envelope.eventType ∧
      payload.get? "resource" = some envelope.resource := by
  have hheader := validatePayPalEnvelope_header h
  simp only [validatePayPalEventHeader, Option.bind_eq_bind, Option.bind_eq_some_iff,
    Option.pure_def, Option.some.injEq, Prod.mk.injEq] at hheader
  obtain ⟨id, -, eventType, htype, -, rfl⟩ := hheader
  obtain ⟨v, hv, hvalue⟩ := Option.bind_eq_some_iff.mp htype
  simp only [validatePayPalEnvelope, Option.bind_eq_bind, Option.bind_eq_some_iff,
    Option.pure_def, Option.some.injEq] at h
  obtain ⟨_, -, _, -, _, -, _, -, resource, hresource, rfl⟩ := h
  obtain ⟨w, hw, hdict⟩ := Option.bind_eq_some_iff.mp hresource
  refine ⟨(textAt_cons_some hv).trans (Option.filter_eq_some_iff.mp hvalue).1, ?_⟩
  rw [hw]
  unfold validateDict at hdict
  split at hdict
  · split at hdict
    · exact hdict
    · cases hdict
  · cases hdict

/-- An event carries the type and the order id of its payload; an order is its own payment. -/
theorem parsePaypalEvent_spec (h : parsePaypalEvent urlparse payload = .ok parsed) :
    ∃ spec, paypalEventSpecs.lookup parsed.eventType = some spec ∧
      payload.textAt ["event_type"] = some parsed.eventType ∧
      parsed.orderId = payload.textAt ("resource" :: spec.resourceModel.orderPath) ∧
      (∀ id, parsed.orderId = some id → matchesPaypalIdentifier id = true) ∧
      (spec.resourceModel = .order → parsed.orderId.isSome = true ∧
        parsed.paymentId = parsed.orderId) := by
  simp only [parsePaypalEvent, bind, Except.bind] at h
  cases hvalid : validatePaypalEvent payload with
  | error err => simp [hvalid] at h
  | ok validated =>
      obtain ⟨envelope, resource⟩ := validated
      simp only [hvalid] at h
      obtain ⟨spec, hspec, hresource, -, henvelope⟩ := validatePaypalEvent_ok hvalid
      obtain ⟨htype, hmember⟩ := validatePayPalEnvelope_textAt henvelope
      obtain ⟨hmodel, horder, hmatch⟩ := validatePayPalResource_orderId hresource
      rw [← textAt_cons_some hmember] at horder
      cases resource with
      | capture id status amount reason orderId =>
          cases h
          exact ⟨spec, hspec, htype, horder, hmatch, fun hkind => by cases hmodel.trans hkind⟩
      | order id status units =>
          cases h
          exact ⟨spec, hspec, htype, horder, hmatch, fun _ => ⟨rfl, rfl⟩⟩
      | refund id status amount links orderId =>
          simp only [paypalEventOf, bind, Except.bind, pure, Except.pure] at h
          split at h
          · cases h
          · cases h
            exact ⟨spec, hspec, htype, horder, hmatch, fun hkind => by cases hmodel.trans hkind⟩

/-- The canonical event keeps the identifiers, and has the type its webhook maps to. -/
theorem normalizePaypalEvent_spec
    (h : normalizePaypalEvent python parsed eventId now = .ok e) :
    e.isPaypal = true ∧ e.orderId = parsed.orderId ∧ e.paymentId = parsed.paymentId.getD "" ∧
      ∃ status, paypalEventMapping.lookup parsed.eventType = some (e.eventType, status) := by
  unfold normalizePaypalEvent at h
  simp only [bind, Except.bind, pure, Except.pure, throw, throwThe, MonadExceptOf.throw] at h
  split at h
  · rename_i hmapped
    split at h
    · cases h
    · split at h
      · cases h
      · split at h
        · cases h
        · split at h
          · cases h
          · cases h
            exact ⟨beq_self_eq_true paypalSourceSystem, rfl, rfl, _, hmapped⟩
  · cases h

end Accepted

/-! ## Roles -/

section Roles
variable {payload : Json} {e : PaymentEvent} {orderId : String} {role : PipelineRole}

/-- The attempt of a PayPal order. -/
def paypalRef (orderId : String) (h : matchesPaypalIdentifier orderId = true) : AttemptRef :=
  ⟨paypalSourceSystem, paypalAttemptId orderId, orderId, by
    simp [validAttemptIdentity, pipelineProviders, h]⟩

theorem inPaypalAttemptNamespace_paypal (hpaypal : e.isPaypal = true) :
    inPaypalAttemptNamespace e = false := by
  simp [inPaypalAttemptNamespace, hpaypal]

/-- A PayPal event with the key of an order has the role. -/
theorem resolve_paypalRef (hpaypal : e.isPaypal = true)
    (hcandidate : candidateRole e = some (role, paypalAttemptId orderId))
    (h : matchesPaypalIdentifier orderId = true) :
    pipelineAttemptRefusal e = none ∧
      resolvePipelineAttempt e = some ⟨role, paypalRef orderId h⟩ := by
  have hsource : e.sourceSystem = paypalSourceSystem := beq_iff_eq.mp hpaypal
  have hkey : AttemptRef.forKey e.sourceSystem (paypalAttemptId orderId) =
      .ok (paypalRef orderId h) := hsource ▸ (paypalRef orderId h).forKey_self
  have hrefusal : pipelineAttemptRefusal e = none := by
    simp [pipelineAttemptRefusal, inPaypalAttemptNamespace_paypal hpaypal, hcandidate, hkey]
  refine ⟨hrefusal, ?_⟩
  simp [resolvePipelineAttempt, hrefusal, hcandidate, hkey]

theorem resolve_none (hpaypal : e.isPaypal = true) (hcandidate : candidateRole e = none) :
    pipelineAttemptRefusal e = none ∧ resolvePipelineAttempt e = none := by
  have hrefusal : pipelineAttemptRefusal e = none := by
    simp [pipelineAttemptRefusal, inPaypalAttemptNamespace_paypal hpaypal, hcandidate]
  exact ⟨hrefusal, by simp [resolvePipelineAttempt, hrefusal, hcandidate]⟩

theorem Approves.not_resolves {orderId' : String} (h : Approves payload orderId) :
    ¬ Resolves payload orderId' := by
  rintro ⟨htype | htype, -⟩
  · exact absurd (h.1.symm.trans htype) (by decide)
  · exact absurd (h.1.symm.trans htype) (by decide)

/-- The event of an approval starts the attempt of its order. -/
theorem Approves.roleOf (h : Approves payload orderId)
    (hmatch : matchesPaypalIdentifier orderId = true) (hpaypal : e.isPaypal = true)
    (htype : e.eventType = paypalTriggerEventType) (hpayment : e.paymentId = orderId) :
    RoleOf payload e := by
  have hne : orderId ≠ "" := by
    rintro rfl
    simp [matchesPaypalIdentifier] at hmatch
  obtain ⟨hrefusal, hresolve⟩ := resolve_paypalRef hpaypal
    (show candidateRole e = some (.trigger, paypalAttemptId orderId) by
      simp [candidateRole, hpaypal, htype, hpayment, hne]) hmatch
  refine ⟨hrefusal, iff_of_true ⟨_, hresolve⟩ h.1, fun ref href => ?_, iff_of_false ?_ ?_,
    fun ref href => ?_, fun ref href => ?_⟩
  · cases hresolve.symm.trans href
    exact ⟨orderId, h, rfl⟩
  · rintro ⟨ref, href⟩
    cases hresolve.symm.trans href
  · rintro ⟨orderId', hresolves⟩
    exact h.not_resolves hresolves
  · cases hresolve.symm.trans href
  · cases hresolve.symm.trans href
    simp only [AttemptRef.forTriggerEvent, hpaypal, htype, hpayment, if_true, bne_self_eq_false,
      Bool.false_eq_true, if_false]
    exact AttemptRef.make_self (paypalRef orderId hmatch)

/-- The event of a capture outcome resolves the attempt of its order. -/
theorem Resolves.roleOf (h : Resolves payload orderId)
    (hmatch : matchesPaypalIdentifier orderId = true) (hpaypal : e.isPaypal = true)
    (htype : e.isTerminal = true) (horder : e.orderId = some orderId) : RoleOf payload e := by
  have hne : orderId ≠ "" := by
    rintro rfl
    simp [matchesPaypalIdentifier] at hmatch
  have hnot : e.eventType ≠ paypalTriggerEventType := by
    intro heq
    rw [PaymentEvent.isTerminal, heq] at htype
    exact absurd htype (by decide)
  obtain ⟨hrefusal, hresolve⟩ := resolve_paypalRef hpaypal
    (show candidateRole e = some (.terminal, paypalAttemptId orderId) by
      simp [candidateRole, hpaypal, hnot, htype, horder, hne]) hmatch
  have hother : ∀ ref, resolvePipelineAttempt e ≠ some ⟨.trigger, ref⟩ := by
    intro ref href
    cases hresolve.symm.trans href
  refine ⟨hrefusal, iff_of_false (not_exists.mpr hother) fun happroval => ?_,
    fun ref href => absurd href (hother ref), iff_of_true ⟨_, hresolve⟩ ⟨orderId, h⟩,
    fun ref href => ?_, fun ref href => absurd href (hother ref)⟩
  · rcases h.1 with hcapture | hcapture
    · exact absurd (happroval.symm.trans hcapture) (by decide)
    · exact absurd (happroval.symm.trans hcapture) (by decide)
  · cases hresolve.symm.trans href
    exact ⟨orderId, h, rfl⟩

/-- The event of any other payload has no role. -/
theorem roleOf_none (hpaypal : e.isPaypal = true) (hcandidate : candidateRole e = none)
    (happroval : payload.textAt ["event_type"] ≠ some "CHECKOUT.ORDER.APPROVED")
    (hresolves : ∀ orderId, ¬ Resolves payload orderId) : RoleOf payload e := by
  obtain ⟨hrefusal, hresolve⟩ := resolve_none hpaypal hcandidate
  have hnone : ∀ role ref, resolvePipelineAttempt e ≠ some ⟨role, ref⟩ := by
    intro role ref href
    cases hresolve.symm.trans href
  exact ⟨hrefusal, iff_of_false (not_exists.mpr (hnone _)) happroval,
    fun ref href => absurd href (hnone _ ref),
    iff_of_false (not_exists.mpr (hnone _)) (not_exists.mpr hresolves),
    fun ref href => absurd href (hnone _ ref), fun ref href => absurd href (hnone _ ref)⟩

/-- The event of a capture outcome has the role of its related order, if it carries one. -/
theorem roleOf_outcome (hname : payload.textAt ["event_type"] = some "PAYMENT.CAPTURE.COMPLETED" ∨
      payload.textAt ["event_type"] = some "PAYMENT.CAPTURE.DECLINED")
    (hpaypal : e.isPaypal = true) (htype : e.isTerminal = true)
    (horder : e.orderId = payload.textAt ("resource" :: relatedOrderPath))
    (hmatch : ∀ id, e.orderId = some id → matchesPaypalIdentifier id = true) :
    RoleOf payload e := by
  cases hid : e.orderId with
  | some id =>
      exact Resolves.roleOf ⟨hname, horder.symm.trans hid⟩ (hmatch id hid) hpaypal htype hid
  | none =>
      have hnot : e.eventType ≠ paypalTriggerEventType := by
        intro heq
        rw [PaymentEvent.isTerminal, heq] at htype
        exact absurd htype (by decide)
      refine roleOf_none hpaypal ?_ (fun happroval => ?_) fun orderId hresolves => ?_
      · simp [candidateRole, hpaypal, hnot, hid]
      · rcases hname with hname | hname
        · exact absurd (happroval.symm.trans hname) (by decide)
        · exact absurd (happroval.symm.trans hname) (by decide)
      · exact absurd (hid.symm.trans (horder.trans hresolves.2)) (by simp)

/-- The event of a payload of another type has no role. -/
theorem roleOf_other {name : String} (hname : payload.textAt ["event_type"] = some name)
    (hnot : name ∉ ["CHECKOUT.ORDER.APPROVED", "PAYMENT.CAPTURE.COMPLETED",
      "PAYMENT.CAPTURE.DECLINED"])
    (hpaypal : e.isPaypal = true) (htrigger : e.eventType ≠ paypalTriggerEventType)
    (hterminal : e.isTerminal = false) : RoleOf payload e := by
  simp only [List.mem_cons, List.not_mem_nil, or_false, not_or] at hnot
  obtain ⟨happroved, hcompleted, hdeclined⟩ := hnot
  refine roleOf_none hpaypal ?_ (fun happroval => ?_) fun orderId hresolves => ?_
  · simp [candidateRole, hpaypal, htrigger, hterminal]
  · exact happroved (Option.some.inj (hname.symm.trans happroval))
  · rcases hresolves.1 with h | h
    · exact hcompleted (Option.some.inj (hname.symm.trans h))
    · exact hdeclined (Option.some.inj (hname.symm.trans h))

end Roles

/-- The canonical event of an accepted PayPal payload has the role of the payload. -/
theorem paypal_roleOf {urlparse : String → Option SplitUrl} {payload : Json}
    {parsed : PayPalWebhookEvent} {python : PythonLibrary} {eventId : ℕ} {now : Time}
    {e : PaymentEvent} (hparsed : parsePaypalEvent urlparse payload = .ok parsed)
    (hcanonical : normalizePaypalEvent python parsed eventId now = .ok e) : RoleOf payload e := by
  obtain ⟨spec, hspec, htype, horder, hmatch, hkind⟩ := parsePaypalEvent_spec hparsed
  obtain ⟨hpaypal, heorder, hpayment, status, hmapped⟩ := normalizePaypalEvent_spec hcanonical
  have hentry : (parsed.eventType, spec) ∈ paypalEventSpecs := by
    obtain ⟨before, after, htable, -⟩ := List.lookup_eq_some_iff.mp hspec
    rw [htable]
    simp
  have hcanonicalType : ∀ {name mapped other}, parsed.eventType = name →
      paypalEventMapping.lookup name = some (mapped, other) → e.eventType = mapped := by
    rintro name mapped other rfl hlookup
    cases hmapped.symm.trans hlookup
    rfl
  rw [← heorder] at horder hmatch
  simp only [paypalEventSpecs, List.mem_cons, Prod.mk.injEq, List.not_mem_nil, or_false] at hentry
  rcases hentry with ⟨hname, rfl⟩ | ⟨hname, rfl⟩ | ⟨hname, rfl⟩ | ⟨hname, rfl⟩ | ⟨hname, rfl⟩ |
    ⟨hname, rfl⟩ <;> rw [hname] at htype
  · -- a completed capture
    have hevent := hcanonicalType hname rfl
    exact roleOf_outcome (.inl htype) hpaypal (by rw [PaymentEvent.isTerminal, hevent]; decide)
      horder hmatch
  · -- a declined capture
    have hevent := hcanonicalType hname rfl
    exact roleOf_outcome (.inr htype) hpaypal (by rw [PaymentEvent.isTerminal, hevent]; decide)
      horder hmatch
  · -- a pending capture
    have hevent := hcanonicalType hname rfl
    exact roleOf_other htype (by decide) hpaypal (by rw [hevent]; decide)
      (by rw [PaymentEvent.isTerminal, hevent]; decide)
  · -- a refund
    have hevent := hcanonicalType hname rfl
    exact roleOf_other htype (by decide) hpaypal (by rw [hevent]; decide)
      (by rw [PaymentEvent.isTerminal, hevent]; decide)
  · -- an approval
    have hevent := hcanonicalType hname rfl
    obtain ⟨hsome, hpaid⟩ := hkind rfl
    obtain ⟨orderId, hid⟩ := Option.isSome_iff_exists.mp hsome
    have hid' := heorder.trans hid
    refine Approves.roleOf ⟨htype, horder.symm.trans hid'⟩ (hmatch orderId hid') hpaypal hevent ?_
    rw [hpayment, hpaid, hid]
    rfl
  · -- a completed order
    have hevent := hcanonicalType hname rfl
    exact roleOf_other htype (by decide) hpaypal (by rw [hevent]; decide)
      (by rw [PaymentEvent.isTerminal, hevent]; decide)

namespace RoleExample

def text (s : String) : Json := .str (.text s)

def object (members : List (String × Json)) : Json :=
  .obj (members.map fun m => (.text m.1, m.2))

/-- A declined capture that names its order. -/
def declined : Json :=
  object
    [("id", text "WH-1"), ("event_type", text "PAYMENT.CAPTURE.DECLINED"),
      ("create_time", text "2024-01-01T00:00:00Z"), ("resource_type", text "capture"),
      ("resource_version", text "2.0"),
      ("resource", object
        [("id", text "C-1"), ("status", text "DECLINED"),
          ("amount", object [("currency_code", text "USD"), ("value", text "12.50")]),
          ("supplementary_data", object
            [("related_ids", object [("order_id", text "O-1")])])])]

def python : PythonLibrary where
  upper := String.toUpper
  fromIsoFormat s :=
    if s = "2024-01-01T00:00:00Z" then some ⟨Time.seconds 1704067200, 0⟩ else none

end RoleExample

open RoleExample in
theorem paypal_roleOf_declined :
    ∃ parsed e, parsePaypalEvent (fun _ => none) declined = .ok parsed ∧
      normalizePaypalEvent python parsed 7 0 = .ok e ∧ RoleOf declined e ∧
      (resolvePipelineAttempt e).map (fun a => a.ref.paymentAttemptId) =
        some "paypal-order:O-1" := by
  cases hparsed : parsePaypalEvent (fun _ => none) declined with
  | error err =>
      have h : (parsePaypalEvent (fun _ => none) declined).isOk = true := by decide +kernel
      rw [hparsed] at h
      cases h
  | ok parsed =>
      cases hcanonical : normalizePaypalEvent python parsed 7 0 with
      | error err =>
          have h : ((parsePaypalEvent (fun _ => none) declined).bind fun parsed =>
              normalizePaypalEvent python parsed 7 0).isOk = true := by decide +kernel
          rw [hparsed] at h
          change (normalizePaypalEvent python parsed 7 0).isOk = true at h
          rw [hcanonical] at h
          cases h
      | ok e =>
          have h : (((parsePaypalEvent (fun _ => none) declined).bind fun parsed =>
              normalizePaypalEvent python parsed 7 0).toOption.bind fun e =>
                (resolvePipelineAttempt e).map (fun a => a.ref.paymentAttemptId)) =
              some "paypal-order:O-1" := by decide +kernel
          rw [hparsed] at h
          change ((normalizePaypalEvent python parsed 7 0).toOption.bind fun e =>
            (resolvePipelineAttempt e).map (fun a => a.ref.paymentAttemptId)) = _ at h
          rw [hcanonical] at h
          exact ⟨parsed, e, rfl, hcanonical, paypal_roleOf hparsed hcanonical, h⟩

end RevenueRecovery
