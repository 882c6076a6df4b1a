import RevenueRecovery.Ingestion.Service

/-!
# Stage 1: parsers

The signature check, and the parsers of decoded webhook bodies. What Python raises and the
code does not catch leaves a function as `unexpected`.

## Main definitions
* `PythonError`, `Json` : what `json.loads` raises and returns.
* `WebhookParts` : what the parsers use of Python and of pydantic.
* `verifyRazorpaySignature`, `parseRazorpayEvent` : the Razorpay webhook.
* `parsePaypalEvent` : the PayPal webhook.
* `WebhookParts.library` : the parsers together, as ingestion uses them.
-/
namespace RevenueRecovery

/-- The exceptions of `json.loads`. All but `recursionError` are `ValueError`s. -/
inductive PythonError
  | jsonDecodeError
  | unicodeDecodeError
  | valueError
  | recursionError
deriving DecidableEq, Repr

/-- A Python string: text, or code points with lone surrogates among them. -/
inductive PyString
  | text (s : String)
  | surrogates (codePoints : List ℕ)
deriving DecidableEq

/-- A decoded JSON value; an object has one member for each key. -/
inductive Json
  | null
  | bool (b : Bool)
  | int (n : ℤ)
  | float (literal : String)
  | str (s : PyString)
  | arr (items : List Json)
  | obj (members : List (PyString × Json))

/-- What `urlparse` finds in a URL. -/
structure SplitUrl where
  scheme : String
  hostname : Option String
  path : String
deriving DecidableEq

def isAscii (s : String) : Bool := s.toList.all fun c => c.toNat < 128

/-- What is used of Python and of pydantic: the HMAC, decoded bodies, lax integers, URLs
(`none` for a `ValueError`), and the digest of a payload (`none` for a `TypeError`).
`loadsStandard` refuses the constants `NaN` and `Infinity`. -/
structure WebhookParts (Body : Type) extends PythonLibrary where
  hmacSha256Hex : String → Body → String
  hmacSha256Hex_ascii : ∀ secret body, isAscii (hmacSha256Hex secret body) = true
  loads : Body → Except PythonError Json
  loadsStandard : Body → Except PythonError Json
  laxInt : Json → Option ℤ
  urlparse : String → Option SplitUrl
  canonicalHash : Json → Option String

/-! ## Schemas -/

namespace Json

/-- The member of an object. -/
def get? (name : String) : Json → Option Json
  | .obj members => members.lookup (.text name)
  | _ => none

def isObject : Json → Bool
  | .obj _ => true
  | _ => false

/-- `StrictStr`, and what `str` accepts of JSON: text without lone surrogates. -/
def strictStr : Json → Option String
  | .str (.text s) => some s
  | _ => none

def strictInt : Json → Option ℤ
  | .int n => some n
  | _ => none

variable {α : Type}

/-- A field that must be there. -/
def required (name : String) (validate : Json → Option α) (j : Json) : Option α :=
  (j.get? name).bind validate

/-- A field that may be missing or `null`. -/
def optional (name : String) (validate : Json → Option α) (j : Json) : Option (Option α) :=
  match j.get? name with
  | none | some .null => some none
  | some value => (validate value).map some

def list (validate : Json → Option α) : Json → Option (List α)
  | .arr items => items.mapM validate
  | _ => none

end Json

open Json

/-! ## Razorpay -/

/-- `hmac.compare_digest` of strings; `none` for the `TypeError` on other than ASCII. -/
def compareDigest (a b : String) : Option Bool :=
  if isAscii a && isAscii b then some (a == b) else none

def verifyRazorpaySignature {Body : Type} (parts : WebhookParts Body) (secret : String)
    (body : Body) (signature : String) : Except IngestionError Unit :=
  if signature = "" then .error .invalidWebhookSignature
  else if secret = "" then .error .invalidWebhookSignature
  else match compareDigest (parts.hmacSha256Hex secret body) signature with
    | none => .error .unexpected
    | some false => .error .invalidWebhookSignature
    | some true => .ok ()

section RazorpaySchema
variable (laxInt : Json → Option ℤ)

/-- `RazorpayPaymentEntity`. -/
def validateRazorpayPaymentEntity (j : Json) : Option RazorpayPaymentEntity := do
  let id ← required "id" strictStr j
  let _ ← required "entity" strictStr j
  let amount ← required "amount" strictInt j
  let currency ← required "currency" strictStr j
  let status ← required "status" strictStr j
  let orderId ← optional "order_id" strictStr j
  let method ← optional "method" strictStr j
  let bank ← optional "bank" strictStr j
  let wallet ← optional "wallet" strictStr j
  let _ ← optional "vpa" strictStr j
  let _ ← required "created_at" laxInt j
  let errorCode ← optional "error_code" strictStr j
  let errorDescription ← optional "error_description" strictStr j
  let errorSource ← optional "error_source" strictStr j
  let errorStep ← optional "error_step" strictStr j
  let errorReason ← optional "error_reason" strictStr j
  return { id := id, amount := amount, currency := currency, status := status, orderId := orderId
           method := method, bank := bank, wallet := wallet, errorCode := errorCode
           errorDescription := errorDescription, errorSource := errorSource
           errorStep := errorStep, errorReason := errorReason }

/-- `RazorpayWebhookEvent.model_validate`. -/
def validateRazorpayWebhookEvent (j : Json) : Option RazorpayWebhookEvent := do
  let entity ← required "entity" strictStr j
  if entity ≠ "event" then none
  let _ ← required "account_id" strictStr j
  let event ← required "event" strictStr j
  let _ ← required "contains" (list strictStr) j
  let payload ← j.get? "payload"
  let wrapper ← payload.get? "payment"
  let payment ← required "entity" (validateRazorpayPaymentEntity laxInt) wrapper
  let createdAt ← required "created_at" laxInt j
  return { event := event, payment := payment, createdAt := createdAt }

end RazorpaySchema

def parseRazorpayEvent {Body : Type} (parts : WebhookParts Body) (body : Body) :
    Except IngestionError RazorpayWebhookEvent :=
  match parts.loads body with
  | .error .jsonDecodeError => .error .malformedInput
  | .error _ => .error .unexpected
  | .ok data =>
      match validateRazorpayWebhookEvent parts.laxInt data with
      | none => .error .schemaValidation
      | some event => .ok event

/-! ## PayPal -/

/-- Full match of `[A-Z0-9][A-Z0-9_.-]{0,127}`. -/
def matchesEventType (s : String) : Bool :=
  let upper := fun c : Char => ('A' ≤ c && c ≤ 'Z') || ('0' ≤ c && c ≤ '9')
  match s.toList with
  | [] => false
  | c :: cs => upper c && cs.length ≤ 127 &&
      cs.all fun d => upper d || d == '_' || d == '.' || d == '-'

def validateIdentifier (j : Json) : Option String := j.strictStr.filter matchesPaypalIdentifier

def validatePayPalMoney (j : Json) : Option PayPalMoney := do
  let currencyCode ← required "currency_code" strictStr j
  let value ← required "value" strictStr j
  return ⟨currencyCode, value⟩

/-- `PayPalRelatedIds`: the order id. -/
def validatePayPalRelatedIds (j : Json) : Option (Option String) :=
  if j.isObject then optional "order_id" validateIdentifier j else none

/-- `PayPalSupplementaryData`: the order id of its related ids. -/
def validatePayPalSupplementaryData (j : Json) : Option (Option String) :=
  if j.isObject then (optional "related_ids" validatePayPalRelatedIds j).map Option.join else none

/-- `PayPalStatusDetails`: the reason. -/
def validatePayPalStatusDetails (j : Json) : Option (Option String) :=
  if j.isObject then optional "reason" strictStr j else none

structure PayPalLink where
  href : String
  rel : String
deriving DecidableEq

def validatePayPalLink (j : Json) : Option PayPalLink := do
  let href ← required "href" strictStr j
  let rel ← required "rel" strictStr j
  return ⟨href, rel⟩

/-- `PayPalPurchaseUnit`: the amount. -/
def validatePayPalPurchaseUnit (j : Json) : Option PayPalMoney := do
  let amount ← required "amount" validatePayPalMoney j
  let _ ← optional "reference_id" strictStr j
  return amount

/-- The resource models. -/
inductive PayPalResourceModel
  | capture
  | refund
  | order
deriving DecidableEq, Repr

/-- A validated resource. -/
inductive ValidatedResource
  | capture (id status : String) (amount : PayPalMoney) (reason orderId : Option String)
  | refund (id status : String) (amount : PayPalMoney) (links : List PayPalLink)
      (orderId : Option String)
  | order (id status : String) (purchaseUnits : List PayPalMoney)
deriving DecidableEq

def ValidatedResource.id : ValidatedResource → String
  | .capture id .. | .refund id .. | .order id .. => id

def ValidatedResource.status : ValidatedResource → String
  | .capture _ status .. | .refund _ status .. | .order _ status _ => status

def validatePayPalResource (model : PayPalResourceModel) (j : Json) :
    Option ValidatedResource := do
  let id ← required "id" validateIdentifier j
  let status ← required "status" strictStr j
  match model with
  | .capture =>
      let amount ← required "amount" validatePayPalMoney j
      let details ← optional "status_details" validatePayPalStatusDetails j
      let related ← optional "supplementary_data" validatePayPalSupplementaryData j
      return .capture id status amount details.join related.join
  | .refund =>
      let amount ← required "amount" validatePayPalMoney j
      let links ← required "links" (list validatePayPalLink) j
      let related ← optional "supplementary_data" validatePayPalSupplementaryData j
      return .refund id status amount links related.join
  | .order =>
      let units ← required "purchase_units" (list validatePayPalPurchaseUnit) j
      if units = [] then none
      return .order id status units

/-- What an event type requires of its resource. -/
structure EventSpec where
  resourceType : String
  resourceModel : PayPalResourceModel
  allowedStatuses : List String
deriving DecidableEq

/-- `_EVENT_SPECS`. -/
def paypalEventSpecs : List (String × EventSpec) :=
  [("PAYMENT.CAPTURE.COMPLETED", ⟨"capture", .capture, ["COMPLETED"]⟩),
    ("PAYMENT.CAPTURE.DECLINED", ⟨"capture", .capture, ["DECLINED", "FAILED"]⟩),
    ("PAYMENT.CAPTURE.PENDING", ⟨"capture", .capture, ["PENDING"]⟩),
    ("PAYMENT.CAPTURE.REFUNDED", ⟨"refund", .refund, ["COMPLETED"]⟩),
    ("CHECKOUT.ORDER.APPROVED", ⟨"checkout-order", .order, ["APPROVED"]⟩),
    ("CHECKOUT.ORDER.COMPLETED", ⟨"checkout-order", .order, ["COMPLETED"]⟩)]

def supportedResourceVersion : String := "2.0"

/-- `_PayPalEventHeader`: the id and the event type. -/
def validatePayPalEventHeader (j : Json) : Option (String × String) := do
  let id ← required "id" validateIdentifier j
  let eventType ← required "event_type" (fun j => j.strictStr.filter matchesEventType) j
  return (id, eventType)

structure PayPalEnvelope where
  id : String
  eventType : String
  createTime : String
  resourceType : String
  resourceVersion : String
  resource : Json

/-- `Dict[str, Any]`. -/
def validateDict : Json → Option Json
  | .obj members =>
      if members.all fun m => match m.1 with
        | .text _ => true
        | .surrogates _ => false
      then some (.obj members) else none
  | _ => none

/-- `_PayPalEnvelope`. -/
def validatePayPalEnvelope (j : Json) : Option PayPalEnvelope := do
  let (id, eventType) ← validatePayPalEventHeader j
  let createTime ← required "create_time" strictStr j
  let resourceType ← required "resource_type" strictStr j
  let resourceVersion ← required "resource_version" strictStr j
  let resource ← required "resource" validateDict j
  return ⟨id, eventType, createTime, resourceType, resourceVersion, resource⟩

/-- `PAYPAL_API_HOSTS`. -/
def paypalApiHosts : List String :=
  ["api.paypal.com", "api-m.paypal.com", "api.sandbox.paypal.com", "api-m.sandbox.paypal.com"]

/-- `^/v2/payments/captures/([A-Za-z0-9][A-Za-z0-9_-]{0,127})$`: the capture id. -/
def matchCapturePath (path : String) : Option String :=
  let start := "/v2/payments/captures/".toList
  if path.toList.take start.length = start then
    some (String.ofList (dropFinalNewline (path.toList.drop start.length)))
      |>.filter matchesPaypalIdentifier
  else none

/-- The capture an `up` link of a refund leads to. -/
def linkedCapture (url : SplitUrl) : Option String :=
  if url.scheme = "https" ∧ url.hostname.any paypalApiHosts.contains then matchCapturePath url.path
  else none

/-- The URL of a link. -/
def PayPalLink.url (urlparse : String → Option SplitUrl) (link : PayPalLink) :
    Except IngestionError SplitUrl :=
  match urlparse link.href with
  | none => .error .unexpected
  | some url => .ok url

/-- `_refunded_capture_id`. -/
def refundedCaptureId (urlparse : String → Option SplitUrl) (links : List PayPalLink) :
    Except IngestionError String := do
  let urls ← (links.filter (·.rel = "up")).mapM (PayPalLink.url urlparse)
  match urls.filterMap linkedCapture with
  | [captureId] => return captureId
  | _ => throw .schemaValidation

/-- The event of a validated envelope and its resource. -/
def paypalEventOf (urlparse : String → Option SplitUrl) (envelope : PayPalEnvelope) :
    ValidatedResource → Except IngestionError PayPalWebhookEvent
  | .capture id _ amount reason orderId =>
      return { eventId := envelope.id, eventType := envelope.eventType
               createTime := envelope.createTime, resource := .capture amount reason
               captureId := some id, orderId := orderId }
  | .refund _ _ amount links orderId => do
      let captureId ← refundedCaptureId urlparse links
      return { eventId := envelope.id, eventType := envelope.eventType
               createTime := envelope.createTime, resource := .refund amount
               captureId := some captureId, orderId := orderId }
  | .order id _ purchaseUnits =>
      return { eventId := envelope.id, eventType := envelope.eventType
               createTime := envelope.createTime, resource := .order purchaseUnits
               captureId := none, orderId := some id }

/-- The envelope and the resource of an event, checked against its event type. -/
def validatePaypalEvent (event : Json) :
    Except IngestionError (PayPalEnvelope × ValidatedResource) := do
  if !event.isObject then throw .malformedInput
  let some (_, eventType) := validatePayPalEventHeader event | throw .schemaValidation
  let some spec := paypalEventSpecs.lookup eventType | throw .unsupportedEventType
  let some envelope := validatePayPalEnvelope event | throw .schemaValidation
  if envelope.resourceType ≠ spec.resourceType then throw .schemaValidation
  if envelope.resourceVersion ≠ supportedResourceVersion then throw .schemaValidation
  let some resource := validatePayPalResource spec.resourceModel envelope.resource
    | throw .schemaValidation
  if resource.status ∉ spec.allowedStatuses then throw .schemaValidation
  return (envelope, resource)

def parsePaypalEvent (urlparse : String → Option SplitUrl) (event : Json) :
    Except IngestionError PayPalWebhookEvent := do
  let (envelope, resource) ← validatePaypalEvent event
  paypalEventOf urlparse envelope resource

/-! ## The library of ingestion -/

/-- What ingestion uses of the parsers, under a webhook secret. `ingest` of PayPal catches
all that decoding a body raises. -/
def WebhookParts.library {Body : Type} (parts : WebhookParts Body) (secret : String) :
    WebhookLibrary Body Json where
  toPythonLibrary := parts.toPythonLibrary
  verifyRazorpaySignature := verifyRazorpaySignature parts secret
  loads body := (parts.loads body).mapError fun _ => .unexpected
  loadsObject body :=
    match parts.loadsStandard body with
    | .error _ => .error .malformedInput
    | .ok payload => if payload.isObject then .ok payload else .error .malformedInput
  parseRazorpayEvent := parseRazorpayEvent parts
  parsePaypalEvent := parsePaypalEvent parts.urlparse
  generateDeterministicHash payload :=
    match parts.canonicalHash payload with
    | none => .error .normalization
    | some hash => .ok hash

end RevenueRecovery
