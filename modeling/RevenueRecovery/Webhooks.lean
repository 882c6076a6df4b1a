import RevenueRecovery.Verification.Client
import RevenueRecovery.Ingestion.Store
import RevenueRecovery.LivePipeline.Run

/-!
# The webhook gateway

The two webhook routes of one process. A Razorpay request is ingested as it comes; a PayPal
request is read up to a limit, verified with PayPal, and then ingested. The answer tells what
became of the delivery, and an event that is newly stored gets its pipeline run once the
request is answered. Requests, calls to PayPal, transactions and pipeline runs interleave.

## Main definitions
* `Host` : the environment of the process, and what it uses of Python.
* `readLimitedBody` : the body of a PayPal request.
* `WebhookRequest`, `WebhookResponse` : a request at any moment, and its answer.
* `Gateway`, `Host.gatewayStep`, `Host.gatewayRun` : the process.
-/
namespace RevenueRecovery

open Tasks Transaction

/-! ## Configuration -/

/-- `KNOWN_PLACEHOLDER_RAZORPAY_SECRETS`. -/
def knownPlaceholderRazorpaySecrets : List String :=
  ["dummy_secret_for_local_dev", "your_razorpay_webhook_secret_here", "test_webhook_secret",
    "replace_with_a_local_test_secret"]

/-- The environment of the process, what it uses of Python, and the policy of Stage 6. -/
structure Host where
  env : String → Option String
  lower : String → String
  depth : ℕ
  parts : WebhookParts ByteArray
  policy : InterventionPolicy

namespace Host

variable (host : Host)

/-- `get_razorpay_webhook_secret`; `none` when the intake is disabled. -/
def getRazorpayWebhookSecret : Option String :=
  let secret := (host.env "RAZORPAY_WEBHOOK_SECRET").getD ""
  let normalized := pyStrip secret
  if normalized.isEmpty then none
  else if host.lower normalized ∈ knownPlaceholderRazorpaySecrets then none
  else some secret

/-- `create_paypal_client`; `none` when the intake is disabled. -/
def createPaypalClient : Option PayPalConfig := (PayPalConfig.fromEnv host.env).toOption

/-- What ingestion uses of Python. -/
def library : WebhookLibrary ByteArray Json :=
  host.parts.library (host.getRazorpayWebhookSecret.getD "")

end Host

/-! ## Requests -/

/-- A status code, with its `detail` or `status`, and the event id of a success. -/
structure WebhookResponse where
  statusCode : ℕ
  text : String
  eventId : Option ℕ := none
deriving DecidableEq

/-- `int` of a header value, whose characters are those of Latin-1. -/
def pyInt (value : String) : Option ℤ :=
  let isCSpace : Char → Bool := fun c => c == ' ' || (0x09 ≤ c.toNat && c.toNat ≤ 0x0d)
  -- other spaces become blanks unless the text is ASCII
  let text := if isAscii value then value.toList
    else value.toList.map fun c => if isPySpace c then ' ' else c
  let text := ((text.dropWhile isCSpace).reverse.dropWhile isCSpace).reverse
  let digits := match text with
    | '-' :: ds | '+' :: ds => ds
    | ds => ds
  let groups := digits.splitOn '_'
  if groups.all fun g => !g.isEmpty && g.all isAsciiDigit then
    if groups.flatten.length ≤ maxStrDigits then
      let n : ℤ := digitsValue groups.flatten
      some (if text.head? = some '-' then -n else n)
    else none
  else none

def maxPaypalWebhookBodyBytes : ℕ := 256 * 1024

/-- The chunks of a body; `none` as soon as they exceed the limit. -/
def readChunks (limit : ℕ) (body : ByteArray) : List ByteArray → Option ByteArray
  | [] => some body
  | chunk :: chunks =>
      let body := body ++ chunk
      if limit < body.size then none else readChunks limit body chunks

def bodyTooLarge : WebhookResponse := { statusCode := 413, text := "Request body too large" }

/-- The declared length is a number within the limit, if there is one. -/
def checkContentLength (contentLength : Option String) (limit : ℕ) :
    Except WebhookResponse Unit :=
  match contentLength with
  | none => .ok ()
  | some declared =>
      match pyInt declared with
      | none => .error { statusCode := 400, text := "Invalid Content-Length header" }
      | some n => if limit < n then .error bodyTooLarge else .ok ()

/-- `_read_limited_body`. -/
def readLimitedBody (contentLength : Option String) (chunks : List ByteArray) (limit : ℕ) :
    Except WebhookResponse ByteArray :=
  (checkContentLength contentLength limit).bind fun _ =>
    (readChunks limit .empty chunks).elim (.error bodyTooLarge) .ok

/-- How the routes answer an error of ingestion; `none` is any other exception. -/
def refusalOfIngestion : Option IngestionError → WebhookResponse
  | some .invalidWebhookSignature => { statusCode := 401, text := "Invalid webhook signature" }
  | some .malformedInput => { statusCode := 400, text := "Malformed request" }
  | some .schemaValidation | some .unsupportedEventType | some .normalization =>
      { statusCode := 422, text := "Unprocessable webhook event" }
  | some .duplicateEventConflict => { statusCode := 409, text := "Conflicting duplicate event" }
  | some .persistence | some .unexpected | none =>
      { statusCode := 500, text := "Internal Server Error" }

/-- How the PayPal route answers a verification that raises. -/
def refusalOfVerification : VerificationError → WebhookResponse
  | .ingestion e => refusalOfIngestion (some e)
  | .requestRejected _ => { statusCode := 400, text := "Webhook could not be verified" }
  | .configuration _ | .auth _ | .unavailable _ =>
      { statusCode := 503, text := "Webhook verification temporarily unavailable" }

/-- How the routes answer a delivery that has ended. A Razorpay duplicate names a new id. -/
def responseOf (d : Delivery ByteArray) (newId : ℕ) :
    DeliveryProc ByteArray Json → Option WebhookResponse
  | .stored _ _ event =>
      some { statusCode := 200, text := if d.isPaypal then "stored" else "success"
             eventId := some event.eventId }
  | .duplicate => some <|
      if d.isPaypal then { statusCode := 200, text := "duplicate" }
      else { statusCode := 200, text := "success", eventId := some newId }
  | .ignored => some { statusCode := 200, text := "ignored" }
  | .failed e => some (refusalOfIngestion e)
  | _ => none

/-- Whether the route schedules `run_live_pipeline` for a delivery that has ended. -/
def schedules (d : Delivery ByteArray) : DeliveryProc ByteArray Json → Bool
  | .stored _ _ event => !d.isPaypal || (resolvePipelineAttempt event).isSome
  | _ => false

/-- A request: a PayPal request whose call of `verify_webhook_signature` has some number, a
request whose delivery has some number, or an answered request, with its delivery if any. -/
inductive WebhookRequest
  | verifying (call : VerifyCall) (task : ℕ)
  | ingesting (d : Delivery ByteArray) (session : ℕ)
  | responded (response : WebhookResponse) (delivery : Option (Delivery ByteArray × ℕ))

/-! ## The process -/

/-- The calls to PayPal, the deliveries, the pipeline, and the requests. Each pipeline run
belongs to the delivery that stored its event, and starts when it has been scheduled. -/
structure Gateway where
  client : ClientWorld := ⟨{}, []⟩
  ingestion : IngestionWorld ByteArray Json := ⟨{}, [], []⟩
  live : LiveWorld := ⟨{}, [], []⟩
  requests : List WebhookRequest := []
  runs : List ℕ := []
  scheduled : List ℕ := []

/-- A request comes in, a call to PayPal goes on, a request takes the answer of PayPal, a
delivery goes on, a request is answered, or a pipeline run goes on. -/
inductive GatewayAction
  | razorpay (body : ByteArray) (signature eventId : Option String)
  | paypal (headers : List (Option String × Option String)) (contentLength : Option String)
      (chunks : List ByteArray)
  | verify (task : ℕ) (input : ClientInput)
  | verified (request : ℕ)
  | deliver (a : IngestionAction ByteArray)
  | respond (request newId : ℕ)
  | pipeline (a : LiveAction)

namespace Gateway

/-- A request that is answered at once. -/
def refuse (w : Gateway) (response : WebhookResponse) : Gateway :=
  { w with requests := w.requests ++ [.responded response none] }

/-- A delivery has stored its event, which may have a pipeline run. -/
def store (w : Gateway) (session : ℕ) (e : PaymentEvent) : Gateway :=
  { w with
    live := { w.live with
      db := w.live.db.apply (.insertEvent e)
      sessions := w.live.sessions ++ (pipelineRuns e).map Session.fresh }
    runs := w.runs ++ (pipelineRuns e).map fun _ => session }

/-- The pipeline run has been scheduled. -/
def started (w : Gateway) (run : ℕ) : Bool := (w.runs[run]?).any (· ∈ w.scheduled)

end Gateway

/-- The pipeline run that takes a step. -/
def runOf : LiveAction → Option ℕ
  | .arrive _ => none
  | .look i | .advance i _ | .abort i => some i

namespace Host

variable (host : Host)

/-- A new delivery, of the request that comes next or of one that waits for its verification. -/
def newDelivery (w : Gateway) (d : Delivery ByteArray) : Option (IngestionWorld ByteArray Json) :=
  (ingestionProgram host.library).worldStep w.ingestion (.arrive d)

def gatewayStep (w : Gateway) : GatewayAction → Option Gateway
  | .razorpay body signature eventId =>
      if host.getRazorpayWebhookSecret.isNone then
        some (w.refuse { statusCode := 503, text := "Webhook intake temporarily unavailable" })
      else if eventId.getD "" = "" then
        some (w.refuse { statusCode := 400, text := "Missing X-Razorpay-Event-Id header" })
      else
        let d := Delivery.razorpay body (signature.getD "") (eventId.getD "")
        (host.newDelivery w d).map fun ingestion =>
          { w with
            ingestion := ingestion
            requests := w.requests ++ [.ingesting d w.ingestion.sessions.length] }
  | .paypal headers contentLength chunks =>
      match host.createPaypalClient with
      | none =>
          some (w.refuse { statusCode := 503, text := "PayPal webhook intake is not configured" })
      | some config =>
          match readLimitedBody contentLength chunks maxPaypalWebhookBodyBytes with
          | .error response => some (w.refuse response)
          | .ok rawBody =>
              let call : VerifyCall := ⟨headers, rawBody⟩
              ((config.system host.lower host.depth).worldStep w.client (.spawn call)).map
                fun client =>
                  { w with
                    client := client
                    requests := w.requests ++ [.verifying call w.client.tasks.length] }
  | .verify task input => do
      let config ← host.createPaypalClient
      let client ← (config.system host.lower host.depth).worldStep w.client (.resume task input)
      return { w with client := client }
  | .verified j =>
      match w.requests[j]? with
      | some (.verifying call task) =>
          match w.client.tasks[task]? with
          | some (.done _ (.error e)) =>
              some { w with requests := w.requests.set j (.responded (refusalOfVerification e) none) }
          | some (.done _ (.ok false)) =>
              some { w with
                requests := w.requests.set j
                  (.responded (refusalOfIngestion (some .invalidWebhookSignature)) none) }
          | some (.done _ (.ok true)) =>
              let d := Delivery.paypal call.rawBody
              (host.newDelivery w d).map fun ingestion =>
                { w with
                  ingestion := ingestion
                  requests := w.requests.set j (.ingesting d w.ingestion.sessions.length) }
          | _ => none
      | _ => none
  | .deliver (.arrive _) => none
  | .deliver (.look k) =>
      ((ingestionProgram host.library).worldStep w.ingestion (.look k)).map fun ingestion =>
        { w with ingestion := ingestion }
  | .deliver (.abort k) =>
      ((ingestionProgram host.library).worldStep w.ingestion (.abort k)).map fun ingestion =>
        { w with ingestion := ingestion }
  | .deliver (.advance k input) =>
      -- PayPal has been asked before the delivery came
      let a : IngestionAction ByteArray := .advance k { input with verification := .ok true }
      ((ingestionProgram host.library).worldStep w.ingestion a).map fun ingestion =>
        let w' := { w with ingestion := ingestion }
        match committedDelivery w.ingestion a with
        | some d => w'.store k d.event
        | none => w'
  | .respond j newId =>
      match w.requests[j]? with
      | some (.ingesting d k) => do
          let s ← w.ingestion.sessions[k]?
          let response ← responseOf d newId s.proc
          return { w with
            requests := w.requests.set j (.responded response (some (d, k)))
            scheduled := if schedules d s.proc then w.scheduled ++ [k] else w.scheduled }
      | _ => none
  | .pipeline a =>
      if (runOf a).any w.started then
        ((liveProgram host.policy).worldStep w.live a).map fun live => { w with live := live }
      else none

/-- The runs of a process, from empty tables. -/
def gatewayRun (as : List GatewayAction) : Option Gateway := Run.exec host.gatewayStep {} as

end Host

end RevenueRecovery
