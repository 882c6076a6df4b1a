import Mathlib.Data.Rat.Defs
import Mathlib.Data.List.Basic

/-!
# Canonical payment events and payment attempts

Stage 1 stores canonical payment events. Stages 5-8 work on payment attempts: one
per Razorpay or synthetic payment, one per PayPal checkout order. The role of an
event in an attempt, and the identity rules of attempts, are computed here.

## Main definitions
* `PaymentEvent` : a row of `payment_events`.
* `AttemptRef` : the identity of an attempt; `AttemptRef.make` enforces its rules.
* `resolvePipelineAttempt` : the Stage 5-8 role of an event.
-/
namespace RevenueRecovery

/-- Instants, in microseconds of UTC since the epoch. -/
abbrev Time := ℤ

namespace Time

def milliseconds (n : ℤ) : ℤ := n * 1000
def seconds (n : ℤ) : ℤ := n * 1000000
def minutes (n : ℤ) : ℤ := seconds (n * 60)
def weeks (n : ℤ) : ℤ := minutes (n * 7 * 24 * 60)

/-- The start of the five-minute tumbling window that contains an instant. -/
def windowStart (t : Time) : Time := t - t % minutes 5

end Time

/-! ## Source systems -/

def paypalSourceSystem : String := "paypal"
def razorpaySourceSystem : String := "razorpay"
def syntheticSourceSystem : String := "synthetic"

/-- The only providers a Stage 5-8 payment attempt may belong to. -/
def pipelineProviders : List String :=
  [razorpaySourceSystem, syntheticSourceSystem, paypalSourceSystem]

/-- Event sources excluded from Stages 2-4 and from every non-PayPal attempt. -/
def nonRazorpayPipelineSources : List String := [paypalSourceSystem]

/-- A canonical payment fact. `ingestedAt` is when the system learnt it. -/
structure PaymentEvent where
  eventId : ℕ
  sourceSystem : String
  sourceEventId : String
  paymentId : String
  orderId : Option String := none
  timestamp : Time
  eventType : String
  currency : String
  amountMinorUnits : ℤ
  paymentStatus : String
  paymentMethod : Option String := none
  bank : Option String := none
  wallet : Option String := none
  errorCode : Option String := none
  errorDescription : Option String := none
  errorSource : Option String := none
  errorStep : Option String := none
  errorReason : Option String := none
  ingestedAt : Time
deriving DecidableEq, Repr

namespace PaymentEvent

/-- The event belongs to PayPal. -/
def isPaypal (e : PaymentEvent) : Bool := e.sourceSystem == paypalSourceSystem

/-- The event is read by Stages 2-4 and by non-PayPal attempts. -/
def inRazorpayPipeline (e : PaymentEvent) : Bool :=
  !nonRazorpayPipelineSources.contains e.sourceSystem

end PaymentEvent

def paypalAttemptPrefix : String := "paypal-order:"
def pipelineTriggerEventType : String := "payment.authorized"
def paypalTriggerEventType : String := "order.approved"
def capturedEventType : String := "payment.captured"
def failedEventType : String := "payment.failed"
def terminalEventTypes : List String := [capturedEventType, failedEventType]

/-- A captured or failed event. -/
def PaymentEvent.isTerminal (e : PaymentEvent) : Bool := terminalEventTypes.contains e.eventType

/-- Errors of the Stage 5-8 services, one for each exception class they raise. -/
inductive ServiceError
  | unsupportedProvider
  | invalidAttemptIdentity
  | attemptNotRegistered
  | attemptProviderConflict
  | invalidDecisionForExecution
  | commandNotFound
  | illegalStateTransition
  | missingUpstreamData
  | executorRaised
  | assertionError
  | valueError
  | typeError
  | integrityError
deriving DecidableEq, Repr

/-- `[A-Za-z0-9]`. -/
def isAsciiAlnum (c : Char) : Bool :=
  ('A' ≤ c && c ≤ 'Z') || ('a' ≤ c && c ≤ 'z') || ('0' ≤ c && c ≤ '9')

/-- Full match of `[A-Za-z0-9][A-Za-z0-9_-]{0,127}`. -/
def matchesPaypalIdentifier (s : String) : Bool :=
  match s.toList with
  | [] => false
  | c :: cs => isAsciiAlnum c && cs.length ≤ 127 &&
      cs.all fun d => isAsciiAlnum d || d == '_' || d == '-'

def paypalAttemptId (orderId : String) : String := paypalAttemptPrefix ++ orderId

/-- The order id behind a PayPal attempt id; `none` for every other attempt id. -/
def paypalOrderId (paymentAttemptId : String) : Option String :=
  let key := paymentAttemptId.toList
  let pre := paypalAttemptPrefix.toList
  if key.take pre.length = pre ∧ key.drop pre.length ≠ [] then
    some (String.ofList (key.drop pre.length))
  else none

/-- The order id of a PayPal attempt. -/
theorem paypalOrderId_paypalAttemptId {orderId : String} (h : orderId ≠ "") :
    paypalOrderId (paypalAttemptId orderId) = some orderId := by
  have htake : (paypalAttemptPrefix.toList ++ orderId.toList).take
      paypalAttemptPrefix.toList.length = paypalAttemptPrefix.toList := List.take_left
  have hdrop : (paypalAttemptPrefix.toList ++ orderId.toList).drop
      paypalAttemptPrefix.toList.length = orderId.toList := List.drop_left
  simp only [paypalOrderId, paypalAttemptId, String.toList_append, htake, hdrop]
  simp [h]

/-- The key starts with the PayPal prefix. -/
def hasPaypalPrefix (paymentAttemptId : String) : Bool :=
  paymentAttemptId.toList.take paypalAttemptPrefix.toList.length = paypalAttemptPrefix.toList

/-- The identity rules of an attempt: the checks of `AttemptRef.__post_init__`. -/
def validAttemptIdentity (sourceSystem paymentAttemptId providerReference : String) :
    Except ServiceError Unit :=
  if !pipelineProviders.contains sourceSystem then .error .unsupportedProvider
  else if sourceSystem == paypalSourceSystem then
    if matchesPaypalIdentifier providerReference
        && paymentAttemptId == paypalAttemptId providerReference then .ok ()
    else .error .invalidAttemptIdentity
  else if providerReference != "" && paymentAttemptId == providerReference
      && !hasPaypalPrefix paymentAttemptId then .ok ()
  else .error .invalidAttemptIdentity

/-- The identity of a Stage 5-8 attempt: its provider, key and provider reference.
An identity that breaks the rules cannot be built. -/
structure AttemptRef where
  sourceSystem : String
  paymentAttemptId : String
  providerReference : String
  valid : validAttemptIdentity sourceSystem paymentAttemptId providerReference = .ok ()
deriving DecidableEq

/-- A Razorpay payment is an attempt under its own id. -/
theorem validAttemptIdentity_pay_1 :
    validAttemptIdentity razorpaySourceSystem "pay_1" "pay_1" = .ok () := rfl

namespace AttemptRef

/-- Construct an identity, or raise the error of the rule it breaks. -/
def make (sourceSystem paymentAttemptId providerReference : String) :
    Except ServiceError AttemptRef :=
  match h : validAttemptIdentity sourceSystem paymentAttemptId providerReference with
  | .ok () => .ok ⟨sourceSystem, paymentAttemptId, providerReference, h⟩
  | .error e => .error e

/-- The attempt a stored key belongs to, given the provider recorded with it. -/
def forKey (sourceSystem paymentAttemptId : String) : Except ServiceError AttemptRef :=
  make sourceSystem paymentAttemptId <|
    if sourceSystem == paypalSourceSystem then (paypalOrderId paymentAttemptId).getD ""
    else paymentAttemptId

/-- The attempt a trigger event starts. -/
def forTriggerEvent (e : PaymentEvent) : Except ServiceError AttemptRef :=
  let expected := if e.isPaypal then paypalTriggerEventType else pipelineTriggerEventType
  if e.eventType != expected then .error .invalidAttemptIdentity
  else if e.isPaypal then
    make paypalSourceSystem (paypalAttemptId e.paymentId) e.paymentId
  else make e.sourceSystem e.paymentId e.paymentId

theorem make_ok {s k p : String} {r : AttemptRef} (h : make s k p = .ok r) :
    r.sourceSystem = s ∧ r.paymentAttemptId = k ∧ r.providerReference = p := by
  unfold make at h
  split at h
  · cases h; exact ⟨rfl, rfl, rfl⟩
  · cases h

theorem make_self (r : AttemptRef) :
    make r.sourceSystem r.paymentAttemptId r.providerReference = .ok r := by
  unfold make
  split
  · rfl
  · rename_i e he
    rw [r.valid] at he
    cases he

theorem forKey_ok {s k : String} {r : AttemptRef} (h : forKey s k = .ok r) :
    r.sourceSystem = s ∧ r.paymentAttemptId = k := ⟨(make_ok h).1, (make_ok h).2.1⟩

/-- A valid identity is the one of its key. -/
theorem forKey_self (r : AttemptRef) :
    forKey r.sourceSystem r.paymentAttemptId = .ok r := by
  have hreference : (if r.sourceSystem == paypalSourceSystem then
      (paypalOrderId r.paymentAttemptId).getD "" else r.paymentAttemptId) =
      r.providerReference := by
    have hvalid := r.valid
    unfold validAttemptIdentity at hvalid
    split at hvalid
    · cases hvalid
    · split at hvalid
      · rename_i hpaypal
        split at hvalid
        · rename_i hmatch
          simp only [Bool.and_eq_true, beq_iff_eq] at hmatch
          have hne : r.providerReference ≠ "" := by
            rintro hempty
            simp [hempty, matchesPaypalIdentifier] at hmatch
          rw [if_pos hpaypal, hmatch.2, paypalOrderId_paypalAttemptId hne]
          rfl
        · cases hvalid
      · rename_i hpaypal
        split at hvalid
        · rename_i hmatch
          simp only [Bool.and_eq_true, beq_iff_eq] at hmatch
          rw [if_neg hpaypal, hmatch.1.2]
        · cases hvalid
  rw [forKey, hreference, make_self]

end AttemptRef

/-! ## Pipeline roles -/

inductive PipelineRole
  | trigger
  | terminal
deriving DecidableEq, Repr

structure PipelineAttempt where
  role : PipelineRole
  ref : AttemptRef
deriving DecidableEq

def PipelineAttempt.paymentAttemptId (a : PipelineAttempt) : String := a.ref.paymentAttemptId

/-- A non-PayPal event whose payment id would be read as a PayPal attempt id. -/
def inPaypalAttemptNamespace (e : PaymentEvent) : Bool :=
  !e.isPaypal && (paypalOrderId e.paymentId).isSome

/-- The role an event's type gives it and the key it names, before identity validation. -/
def candidateRole (e : PaymentEvent) : Option (PipelineRole × String) :=
  if e.isPaypal then
    if e.eventType = paypalTriggerEventType ∧ e.paymentId ≠ "" then
      some (.trigger, paypalAttemptId e.paymentId)
    else if e.isTerminal then
      match e.orderId with
      | some orderId => if orderId ≠ "" then some (.terminal, paypalAttemptId orderId) else none
      | none => none
    else none
  else if e.eventType = pipelineTriggerEventType then some (.trigger, e.paymentId)
  else if e.isTerminal then some (.terminal, e.paymentId)
  else none

/-- Why an event that would start or resolve an attempt is refused. -/
inductive AttemptRefusal
  | paypalNamespace
  | identity (error : ServiceError)
deriving DecidableEq, Repr

def pipelineAttemptRefusal (e : PaymentEvent) : Option AttemptRefusal :=
  if inPaypalAttemptNamespace e then some .paypalNamespace
  else match candidateRole e with
    | none => none
    | some (_, key) =>
        match AttemptRef.forKey e.sourceSystem key with
        | .ok _ => none
        | .error err => some (.identity err)

/-- The Stage 5-8 role of an event and its attempt; `none` when it has none. -/
def resolvePipelineAttempt (e : PaymentEvent) : Option PipelineAttempt :=
  if (pipelineAttemptRefusal e).isSome then none
  else match candidateRole e with
    | none => none
    | some (role, key) =>
        match AttemptRef.forKey e.sourceSystem key with
        | .ok ref => some ⟨role, ref⟩
        | .error _ => none

/-! ## The events of an attempt -/

/-- `paypal_trigger_events`: the approvals of a PayPal order. -/
def isPaypalTrigger (orderId : String) (e : PaymentEvent) : Bool :=
  e.isPaypal && e.eventType == paypalTriggerEventType && e.paymentId == orderId

/-- `paypal_terminal_events`: the capture outcomes of a PayPal order. -/
def isPaypalTerminal (orderId : String) (e : PaymentEvent) : Bool :=
  e.isPaypal && e.isTerminal && e.orderId == some orderId

/-- The authorizations of the attempt, whatever non-PayPal source recorded them. -/
def isTriggerOf (paymentAttemptId : String) (e : PaymentEvent) : Bool :=
  match paypalOrderId paymentAttemptId with
  | some orderId => isPaypalTrigger orderId e
  | none => e.paymentId == paymentAttemptId && e.eventType == pipelineTriggerEventType &&
      e.inRazorpayPipeline

/-- The terminal events of the attempt, whatever non-PayPal source recorded them. -/
def isTerminalOf (paymentAttemptId : String) (e : PaymentEvent) : Bool :=
  match paypalOrderId paymentAttemptId with
  | some orderId => isPaypalTerminal orderId e
  | none => e.paymentId == paymentAttemptId && e.isTerminal && e.inRazorpayPipeline

/-- The authorizations of the attempt recorded by its own provider. -/
def isTriggerFrom (sourceSystem paymentAttemptId : String) (e : PaymentEvent) : Bool :=
  if sourceSystem = paypalSourceSystem then
    match paypalOrderId paymentAttemptId with
    | some orderId => isPaypalTrigger orderId e
    | none => false
  else e.paymentId == paymentAttemptId && e.eventType == pipelineTriggerEventType &&
    e.sourceSystem == sourceSystem

/-- The terminal events of the attempt recorded by its own provider. -/
def isTerminalFrom (sourceSystem paymentAttemptId : String) (e : PaymentEvent) : Bool :=
  if sourceSystem = paypalSourceSystem then
    match paypalOrderId paymentAttemptId with
    | some orderId => isPaypalTerminal orderId e
    | none => false
  else e.paymentId == paymentAttemptId && e.isTerminal && e.sourceSystem == sourceSystem

/-- The terminal events Stages 5 and 6 look for; a PayPal key without the prefix is
read as the order id itself. -/
def isTerminalBefore (sourceSystem paymentAttemptId : String) (e : PaymentEvent) : Bool :=
  if sourceSystem = paypalSourceSystem then
    isPaypalTerminal ((paypalOrderId paymentAttemptId).getD paymentAttemptId) e
  else e.paymentId == paymentAttemptId && e.isTerminal && e.sourceSystem == sourceSystem

/-- A resolved event names its own provider, and its key is the candidate key. -/
theorem resolvePipelineAttempt_spec {e : PaymentEvent} {a : PipelineAttempt}
    (h : resolvePipelineAttempt e = some a) :
    candidateRole e = some (a.role, a.ref.paymentAttemptId) ∧
      a.ref.sourceSystem = e.sourceSystem ∧ inPaypalAttemptNamespace e = false := by
  unfold resolvePipelineAttempt at h
  split at h
  · cases h
  · rename_i hrefused
    have hspace : inPaypalAttemptNamespace e = false := by
      rw [Bool.eq_false_iff]
      intro hns
      simp [pipelineAttemptRefusal, hns] at hrefused
    split at h
    · cases h
    · rename_i role key hcand
      split at h
      · rename_i ref href
        cases h
        obtain ⟨hsource, hkey⟩ := AttemptRef.forKey_ok href
        exact ⟨by rw [hcand, hkey], hsource, hspace⟩
      · cases h

end RevenueRecovery
