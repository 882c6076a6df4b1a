import Mathlib.Algebra.Group.Int.Defs
import Mathlib.Algebra.Group.Nat.Defs
import RevenueRecovery.Domain.Events

/-!
# Stage 1: normalizers

A parsed webhook event of either provider becomes a canonical payment event, or is refused.
PayPal amounts are decimal strings; they become minor units of their currency exactly.

## Main definitions
* `RazorpayWebhookEvent`, `PayPalWebhookEvent` : parsed events, as far as they are read.
* `toMinorUnits` : the minor units of a decimal string.
* `normalizeRazorpayEvent`, `normalizePaypalEvent` : the canonical events.
-/
namespace RevenueRecovery

/-- Errors of ingestion, one for each exception class; `unexpected` is any other. -/
inductive IngestionError
  | malformedInput
  | schemaValidation
  | unsupportedEventType
  | normalization
  | duplicateEventConflict
  | persistence
  | invalidWebhookSignature
  | unexpected
deriving DecidableEq, Repr

/-- A date and time with its offset from UTC. -/
structure OffsetDateTime where
  wallClock : Time
  utcOffset : Time
deriving DecidableEq

/-- What is used of Python's tables of letter cases and dates: `str.upper`, and
`datetime.fromisoformat`, which may raise a `ValueError`. -/
structure PythonLibrary where
  upper : String → String
  fromIsoFormat : String → Option OffsetDateTime

/-- The years 1 to 9999. -/
def inCalendar (t : Time) : Bool :=
  Time.seconds (-62135596800) ≤ t && t < Time.seconds 253402300800

/-- `datetime.astimezone` to UTC; a date outside of the calendar overflows. -/
def OffsetDateTime.astimezone (d : OffsetDateTime) : Except IngestionError Time :=
  if inCalendar (d.wallClock - d.utcOffset) then .ok (d.wallClock - d.utcOffset)
  else .error .unexpected

/-! ## Razorpay -/

/-- The payment object of a Razorpay webhook. -/
structure RazorpayPaymentEntity where
  id : String
  amount : ℤ
  currency : String
  status : String
  orderId : Option String := none
  method : Option String := none
  bank : Option String := none
  wallet : Option String := none
  errorCode : Option String := none
  errorDescription : Option String := none
  errorSource : Option String := none
  errorStep : Option String := none
  errorReason : Option String := none
deriving DecidableEq

/-- A parsed Razorpay webhook; `createdAt` is in seconds. -/
structure RazorpayWebhookEvent where
  event : String
  payment : RazorpayPaymentEntity
  createdAt : ℤ
deriving DecidableEq

/-- `datetime.fromtimestamp` in UTC: the years 1 to 9999; seconds that do not fit 64 bits
overflow. -/
def fromTimestamp (seconds : ℤ) : Except IngestionError Time :=
  if seconds < -2 ^ 63 ∨ 2 ^ 63 ≤ seconds then .error .unexpected
  else if seconds < -62135596800 ∨ 253402300799 < seconds then .error .normalization
  else .ok (Time.seconds seconds)

/-- The canonical event of a Razorpay webhook, with a new id, ingested at `now`. -/
def normalizeRazorpayEvent (python : PythonLibrary) (event : RazorpayWebhookEvent)
    (sourceEventId : String) (eventId : ℕ) (now : Time) :
    Except IngestionError PaymentEvent := do
  let timestamp ← fromTimestamp event.createdAt
  if (paypalOrderId event.payment.id).isSome then throw .normalization
  return { eventId := eventId
           sourceSystem := razorpaySourceSystem
           sourceEventId := sourceEventId
           paymentId := event.payment.id
           orderId := event.payment.orderId
           timestamp := timestamp
           eventType := event.event
           currency := python.upper event.payment.currency
           amountMinorUnits := event.payment.amount
           paymentStatus := event.payment.status
           paymentMethod := event.payment.method
           bank := event.payment.bank
           wallet := event.payment.wallet
           errorCode := event.payment.errorCode
           errorDescription := event.payment.errorDescription
           errorSource := event.payment.errorSource
           errorStep := event.payment.errorStep
           errorReason := event.payment.errorReason
           ingestedAt := now }

/-! ## PayPal -/

structure PayPalMoney where
  currencyCode : String
  value : String
deriving DecidableEq

/-- The resource of a PayPal webhook: the amounts it names, and why a capture failed. -/
inductive PayPalResource
  | capture (amount : PayPalMoney) (reason : Option String)
  | refund (amount : PayPalMoney)
  | order (purchaseUnits : List PayPalMoney)
deriving DecidableEq

/-- A parsed PayPal webhook. -/
structure PayPalWebhookEvent where
  eventId : String
  eventType : String
  createTime : String
  resource : PayPalResource
  captureId : Option String
  orderId : Option String
deriving DecidableEq

/-- `PAYPAL_EVENT_MAPPING`: the canonical event type and payment status. -/
def paypalEventMapping : List (String × String × String) :=
  [("PAYMENT.CAPTURE.COMPLETED", "payment.captured", "captured"),
    ("PAYMENT.CAPTURE.DECLINED", "payment.failed", "failed"),
    ("PAYMENT.CAPTURE.PENDING", "payment.pending", "pending"),
    ("PAYMENT.CAPTURE.REFUNDED", "payment.refunded", "refunded"),
    ("CHECKOUT.ORDER.APPROVED", "order.approved", "approved"),
    ("CHECKOUT.ORDER.COMPLETED", "order.completed", "completed")]

/-- `PAYPAL_CURRENCY_EXPONENTS`. -/
def paypalCurrencyExponents : List (String × ℕ) :=
  [("AUD", 2), ("BRL", 2), ("CAD", 2), ("CHF", 2), ("CNY", 2), ("CZK", 2), ("DKK", 2),
    ("EUR", 2), ("GBP", 2), ("HKD", 2), ("ILS", 2), ("MXN", 2), ("MYR", 2), ("NOK", 2),
    ("NZD", 2), ("PHP", 2), ("PLN", 2), ("RUB", 2), ("SEK", 2), ("SGD", 2), ("THB", 2),
    ("USD", 2), ("HUF", 0), ("JPY", 0), ("TWD", 0)]

def maxAmountMinorUnits : ℕ := 2147483647
def maxAmountLength : ℕ := 32

/-- `[0-9]`. -/
def isAsciiDigit (c : Char) : Bool := '0' ≤ c && c ≤ '9'

/-- The number that decimal digits denote. -/
def digitsValue (digits : List Char) : ℕ :=
  digits.foldl (fun n c => 10 * n + (c.toNat - '0'.toNat)) 0

/-- What a pattern that ends in `$` still has to match: it may stop before a final newline. -/
def dropFinalNewline (text : List Char) : List Char :=
  if text.getLast? = some '\n' then text.dropLast else text

/-- `0|[1-9][0-9]*`, for a list of digits. -/
def isWholePart (digits : List Char) : Bool :=
  match digits with
  | [] => false
  | [_] => true
  | c :: _ => c != '0'

/-- `^(0|[1-9][0-9]*)(\.([0-9]+))?$`: the digits before and after the point. -/
def matchAmount (value : String) : Option (List Char × List Char) :=
  let text := dropFinalNewline value.toList
  let whole := text.takeWhile isAsciiDigit
  if !isWholePart whole then none
  else match text.dropWhile isAsciiDigit with
    | [] => some (whole, [])
    | '.' :: fraction =>
        if !fraction.isEmpty && fraction.all isAsciiDigit then some (whole, fraction) else none
    | _ => none

/-- The positive minor units of a decimal amount of a supported currency. -/
def toMinorUnits (value currencyCode : String) : Except IngestionError ℕ := do
  let some exponent := paypalCurrencyExponents.lookup currencyCode | throw .normalization
  if value.length > maxAmountLength then throw .normalization
  let some (whole, fraction) := matchAmount value | throw .normalization
  if fraction.length > exponent then throw .normalization
  let minorUnits := digitsValue (whole ++ fraction) * 10 ^ (exponent - fraction.length)
  if minorUnits = 0 ∨ minorUnits > maxAmountMinorUnits then throw .normalization
  return minorUnits

/-- `\d{n}`, and what is left of the text. -/
def matchDigits (n : ℕ) (text : List Char) : Option (List Char) :=
  if n ≤ text.length ∧ (text.take n).all isAsciiDigit then some (text.drop n) else none

def matchChar (c : Char) (text : List Char) : Option (List Char) :=
  if text.head? = some c then some text.tail else none

/-- `Z|[+-]\d{2}:\d{2}` up to the end. -/
def matchOffset (text : List Char) : Bool :=
  match text with
  | ['Z'] => true
  | sign :: rest => (sign = '+' || sign = '-') &&
      ((matchDigits 2 rest).bind fun rest => (matchChar ':' rest).bind (matchDigits 2)) = some []
  | [] => false

/-- `(\.\d{1,9})?` and the offset. -/
def matchFraction (text : List Char) : Bool :=
  match text with
  | '.' :: rest =>
      let digits := rest.takeWhile isAsciiDigit
      1 ≤ digits.length && digits.length ≤ 9 && matchOffset (rest.dropWhile isAsciiDigit)
  | _ => matchOffset text

/-- A date and time with an offset. The pattern of the source also lets digits of other
scripts and a final newline pass, which `fromisoformat` then refuses. -/
def matchesRfc3339 (value : String) : Bool :=
  (do
    let text ← matchDigits 4 value.toList
    let text ← (matchChar '-' text).bind (matchDigits 2)
    let text ← (matchChar '-' text).bind (matchDigits 2)
    let text ← (matchChar 'T' text).bind (matchDigits 2)
    let text ← (matchChar ':' text).bind (matchDigits 2)
    (matchChar ':' text).bind (matchDigits 2)).any matchFraction

def parsePaypalTimestamp (python : PythonLibrary) (value : String) : Except IngestionError Time :=
  if !matchesRfc3339 value then .error .normalization
  else match python.fromIsoFormat value with
    | none => .error .normalization
    | some parsed => parsed.astimezone

/-- The amount of the resource; orders have one purchase unit. -/
def PayPalResource.eventAmount : PayPalResource → Except IngestionError PayPalMoney
  | .order [amount] => .ok amount
  | .order _ => .error .normalization
  | .capture amount _ => .ok amount
  | .refund amount => .ok amount

/-- Why a capture failed. -/
def PayPalResource.failureReason : PayPalResource → Option String
  | .capture _ reason => reason
  | _ => none

/-- The capture id, or the order id of an order. -/
def PayPalWebhookEvent.paymentId (event : PayPalWebhookEvent) : Option String :=
  match event.resource with
  | .order _ => event.orderId
  | _ => event.captureId

/-- The canonical event of a PayPal webhook, with a new id, ingested at `now`. -/
def normalizePaypalEvent (python : PythonLibrary) (event : PayPalWebhookEvent) (eventId : ℕ)
    (now : Time) : Except IngestionError PaymentEvent := do
  let some (eventType, paymentStatus) := paypalEventMapping.lookup event.eventType
    | throw .normalization
  let paymentId := event.paymentId.getD ""
  if paymentId = "" then throw .normalization
  let amount ← event.resource.eventAmount
  let timestamp ← parsePaypalTimestamp python event.createTime
  let amountMinorUnits ← toMinorUnits amount.value amount.currencyCode
  return { eventId := eventId
           sourceSystem := paypalSourceSystem
           sourceEventId := event.eventId
           paymentId := paymentId
           orderId := event.orderId
           timestamp := timestamp
           eventType := eventType
           currency := amount.currencyCode
           amountMinorUnits := amountMinorUnits
           paymentStatus := paymentStatus
           errorReason := if eventType = failedEventType then event.resource.failureReason else none
           ingestedAt := now }

/-! ## The identity of a canonical event -/

section Identity
variable {python : PythonLibrary} {eventId : ℕ} {now : Time} {e : PaymentEvent}

theorem normalizeRazorpayEvent_identity {event : RazorpayWebhookEvent} {sourceEventId : String}
    (h : normalizeRazorpayEvent python event sourceEventId eventId now = .ok e) :
    e.sourceSystem = razorpaySourceSystem ∧ e.sourceEventId = sourceEventId := by
  unfold normalizeRazorpayEvent at h
  simp only [bind, Except.bind] at h
  split at h
  · cases h
  · split at h
    · cases h
    · cases h
      exact ⟨rfl, rfl⟩

theorem normalizePaypalEvent_identity {event : PayPalWebhookEvent}
    (h : normalizePaypalEvent python event eventId now = .ok e) :
    e.sourceSystem = paypalSourceSystem ∧ e.sourceEventId = event.eventId := by
  unfold normalizePaypalEvent at h
  simp only [bind, Except.bind] at h
  split at h
  · split at h
    · cases h
    · split at h
      · cases h
      · split at h
        · cases h
        · split at h
          · cases h
          · cases h
            exact ⟨rfl, rfl⟩
  · cases h

end Identity

/-! ## The errors of normalization -/

section Errors
variable {python : PythonLibrary} {eventId : ℕ} {now : Time} {err : IngestionError}

theorem normalizeRazorpayEvent_error {event : RazorpayWebhookEvent} {sourceEventId : String}
    (h : normalizeRazorpayEvent python event sourceEventId eventId now = .error err) :
    err = .normalization ∨ err = .unexpected := by
  simp only [normalizeRazorpayEvent, fromTimestamp, bind, Except.bind, pure, Except.pure, throw,
    throwThe, MonadExceptOf.throw] at h
  grind

theorem toMinorUnits_error {value currencyCode : String}
    (h : toMinorUnits value currencyCode = .error err) : err = .normalization := by
  simp only [toMinorUnits, bind, Except.bind, pure, Except.pure, throw, throwThe,
    MonadExceptOf.throw] at h
  grind

theorem parsePaypalTimestamp_error {value : String}
    (h : parsePaypalTimestamp python value = .error err) :
    err = .normalization ∨ err = .unexpected := by
  unfold parsePaypalTimestamp OffsetDateTime.astimezone at h
  grind

theorem eventAmount_error {resource : PayPalResource} (h : resource.eventAmount = .error err) :
    err = .normalization := by
  unfold PayPalResource.eventAmount at h
  grind

theorem normalizePaypalEvent_error {event : PayPalWebhookEvent}
    (h : normalizePaypalEvent python event eventId now = .error err) :
    err = .normalization ∨ err = .unexpected := by
  simp only [normalizePaypalEvent, bind, Except.bind, pure, Except.pure, throw, throwThe,
    MonadExceptOf.throw] at h
  grind [eventAmount_error, parsePaypalTimestamp_error, toMinorUnits_error]

end Errors

/-- Yen have no minor units, and a final newline is read over. -/
example : (toMinorUnits "12.50" "USD").toOption = some 1250 ∧
    (toMinorUnits "12" "JPY").toOption = some 12 ∧ (toMinorUnits "12.5" "JPY").toOption = none ∧
    (toMinorUnits "12.50\n" "USD").toOption = some 1250 ∧
    (toMinorUnits "012" "USD").toOption = none := by
  decide +kernel

end RevenueRecovery
