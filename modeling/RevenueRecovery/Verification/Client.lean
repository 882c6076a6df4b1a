import Mathlib.Algebra.Order.Field.Rat
import RevenueRecovery.Ingestion.Verification
import RevenueRecovery.Lib.FairLock
import RevenueRecovery.Lib.Tasks

/-!
# Stage 1: the PayPal client

PayPal is asked whether a webhook is genuine. The question carries an access token; one token
is shared by all calls, kept until a minute before it expires, and fetched again under a lock,
for which calls wait in a queue. A token that PayPal refuses is dropped, unless another one
has been fetched meanwhile. Calls interleave wherever they await the lock or PayPal, and may
be cancelled there.

## Main definitions
* `PayPalConfig`, `PayPalConfig.fromEnv` : the credentials, and what is checked of them.
* `TokenGrant`, `tokenOf` : a token, and what is accepted as one.
* `verdictOf` : the answer of a verification.
* `VerifyTask`, `PayPalConfig.system`, `clientRun` : calls of `verify_webhook_signature`.
* `Traffic` : what is exchanged with PayPal.
-/
namespace RevenueRecovery

/-! ## Configuration -/

inductive PayPalEnvironment
  | sandbox
  | live
deriving DecidableEq, Repr

/-- The exceptions of the client, and those of ingestion it raises. -/
inductive VerificationError
  | ingestion (error : IngestionError)
  | configuration (message : String)
  | auth (message : String)
  | unavailable (message : String)
  | requestRejected (message : String)
deriving DecidableEq

/-- `str.strip`. -/
def pyStrip (s : String) : String :=
  String.ofList ((s.toList.dropWhile isPySpace).reverse.dropWhile isPySpace).reverse

/-- `re.match` of `^[A-Za-z0-9_-]{1,n}$`. -/
def matchesClientPattern (extra : Char → Bool) (limit : ℕ) (s : String) : Bool :=
  let text := dropFinalNewline s.toList
  !text.isEmpty && text.length ≤ limit && text.all fun c => isAsciiAlnum c || extra c

/-- `_CLIENT_ID_PATTERN`, `_WEBHOOK_ID_PATTERN`. -/
def isIdChar (c : Char) : Bool := c == '_' || c == '-'

/-- `PayPalConfig.__post_init__`; `none` if it raises nothing. -/
def configProblem (clientId clientSecret : String) (webhookId : Option String) : Option String :=
  if !matchesClientPattern isIdChar 256 clientId then
    some "PayPal client_id is missing or invalid"
  else if (pyStrip clientSecret).isEmpty then some "PayPal client_secret is missing or invalid"
  else if webhookId.any fun id => !matchesClientPattern isIdChar 128 id then
    some "PayPal webhook_id is invalid"
  else none

/-- The credentials and the environment. -/
structure PayPalConfig where
  clientId : String
  clientSecret : String
  webhookId : Option String := none
  environment : PayPalEnvironment := .sandbox
  valid : configProblem clientId clientSecret webhookId = none

/-- `PayPalConfig.from_env`. -/
def PayPalConfig.fromEnv (env : String → Option String) : Except VerificationError PayPalConfig :=
  let get := fun name => (env name).getD ""
  let missing := ["PAYPAL_CLIENT_ID", "PAYPAL_CLIENT_SECRET"].filter fun name =>
    (pyStrip (get name)).isEmpty
  if !missing.isEmpty then
    .error (.configuration ("Missing PayPal configuration: " ++ ", ".intercalate missing))
  else
    let environment :=
      match pyStrip (get "PAYPAL_ENVIRONMENT") with
      | "" | "sandbox" => some PayPalEnvironment.sandbox
      | "live" => some .live
      | _ => none
    match environment with
    | none => .error (.configuration "PAYPAL_ENVIRONMENT must be 'sandbox' or 'live'")
    | some environment =>
        let clientId := pyStrip (get "PAYPAL_CLIENT_ID")
        let webhookId := pyStrip (get "PAYPAL_WEBHOOK_ID")
        let webhookId := if webhookId.isEmpty then none else some webhookId
        match h : configProblem clientId (get "PAYPAL_CLIENT_SECRET") webhookId with
        | some problem => .error (.configuration problem)
        | none => .ok ⟨clientId, get "PAYPAL_CLIENT_SECRET", webhookId, environment, h⟩

/-! ## Answers of PayPal -/

/-- A response; `json` is `none` when its body is no JSON. -/
structure HttpResponse where
  statusCode : ℕ
  debugId : Option String := none
  json : Option Json := none

/-- A request without a response. -/
inductive TransportError
  | timeout
  | failed
deriving DecidableEq

/-- `_status_info`. -/
def HttpResponse.statusInfo (r : HttpResponse) : String :=
  match r.debugId with
  | some id =>
      if matchesClientPattern (· == '-') 64 id then
        "HTTP " ++ toString r.statusCode ++ ", debug_id=" ++ id
      else "HTTP " ++ toString r.statusCode
  | none => "HTTP " ++ toString r.statusCode

/-- An error message names the status of the response. -/
def HttpResponse.about (r : HttpResponse) (problem : String) : String :=
  problem ++ " (" ++ r.statusInfo ++ ")"

def tokenRefreshMarginSeconds : ℚ := 60
def maxTokenLifetimeSeconds : ℤ := 86400
def maxTokenLength : ℕ := 4096

/-- `re.match` of `_TOKEN_PATTERN`. -/
def matchesToken (s : String) : Bool :=
  let text := dropFinalNewline s.toList
  !text.isEmpty && text.all fun c => 0x21 ≤ c.toNat && c.toNat ≤ 0x7e

/-- A token, when it was asked for, and for how many seconds it was granted. -/
structure TokenGrant where
  token : String
  requestedAt : ℚ
  expiresIn : ℤ
deriving DecidableEq

/-- `_CachedToken.refresh_at`. -/
def TokenGrant.refreshAt (g : TokenGrant) : ℚ :=
  g.requestedAt + max ((g.expiresIn : ℚ) - tokenRefreshMarginSeconds) 0

section Answers
variable (lower : String → String)

/-- What is read from the body of a token response. -/
def grantOf (requestedAt : ℚ) (body : Json) : Option TokenGrant := do
  let accessToken ← body.required "access_token" Json.strictStr
  let tokenType ← body.required "token_type" Json.strictStr
  let expiresIn ← body.required "expires_in" Json.strictInt
  if accessToken.length > maxTokenLength || !matchesToken accessToken ||
      lower tokenType ≠ "bearer" || expiresIn ≤ 0 || expiresIn > maxTokenLifetimeSeconds then
    none
  else some ⟨accessToken, requestedAt, expiresIn⟩

/-- `_fetch_token`, once PayPal has answered. -/
def tokenOf (requestedAt : ℚ) :
    Except TransportError HttpResponse → Except VerificationError TokenGrant
  | .error .timeout => .error (.unavailable "PayPal OAuth token request timed out")
  | .error .failed =>
      .error (.unavailable "PayPal OAuth token request failed before a response was received")
  | .ok r =>
      if r.statusCode = 400 ∨ r.statusCode = 401 ∨ r.statusCode = 403 then
        .error (.auth (r.about "PayPal rejected the OAuth credentials"))
      else if r.statusCode ≠ 200 then
        .error (.unavailable (r.about "PayPal OAuth token request failed"))
      else match r.json with
        | none => .error (.unavailable (r.about "PayPal OAuth token response is not valid JSON"))
        | some body =>
            match grantOf lower requestedAt body with
            | none => .error (.unavailable (r.about "PayPal OAuth token response is malformed"))
            | some grant => .ok grant

/-- `verify_webhook_signature`, once PayPal has answered. -/
def verdictOf : Except TransportError HttpResponse → Except VerificationError Bool
  | .error .timeout => .error (.unavailable "PayPal webhook verification request timed out")
  | .error .failed => .error (.unavailable
      "PayPal webhook verification request failed before a response was received")
  | .ok r =>
      if r.statusCode = 401 ∨ r.statusCode = 403 then
        .error (.auth (r.about "PayPal rejected the webhook verification request credentials"))
      else if r.statusCode = 400 then
        .error (.requestRejected
          (r.about "PayPal rejected the webhook verification request as invalid"))
      else if r.statusCode ≠ 200 then
        .error (.unavailable (r.about "PayPal webhook verification request failed"))
      else match r.json with
        | none => .error (.unavailable
            (r.about "PayPal webhook verification response is not valid JSON"))
        | some body =>
            match body.get? "verification_status" with
            | some (.str (.text "SUCCESS")) => .ok true
            | some (.str (.text "FAILURE")) => .ok false
            | some (.str _) => .error (.unavailable (r.about
                "PayPal webhook verification response has an unexpected verification_status"))
            | _ => .error (.unavailable
                (r.about "PayPal webhook verification response is malformed"))

end Answers

/-! ## Calls -/

/-- What is exchanged with PayPal, and by which call. A token request that fails, or whose
call is cancelled, is `tokenAbandoned`. -/
inductive Traffic
  | tokenRequested (i : ℕ) (checkedAt : ℚ)
  | tokenGranted (i : ℕ) (grant : TokenGrant)
  | tokenAbandoned (i : ℕ)
  | verificationSent (i : ℕ) (token : String) (content : ByteArray) (checkedAt : ℚ)
  | verificationAnswered (i : ℕ) (token : String) (content : ByteArray)
      (response : Except TransportError HttpResponse)

/-- The client, with the token lock of its calls, and what it exchanged so far. -/
structure PayPalClient where
  token : Option TokenGrant := none
  lock : FairLock ℕ := {}
  traffic : List Traffic := []

/-- The arguments of `verify_webhook_signature`. -/
structure VerifyCall where
  headers : List (Option String × Option String)
  rawBody : ByteArray

/-- A call, at what it awaits. A call that is cancelled while it waits for the token lock is
`cancelling` until it goes on. -/
inductive VerifyTask
  | called (call : VerifyCall)
  | waiting (call : VerifyCall) (content : ByteArray)
  | cancelling (call : VerifyCall)
  | fetching (call : VerifyCall) (content : ByteArray) (requestedAt : ℚ)
  | verifying (call : VerifyCall) (content : ByteArray) (token : String)
  | done (call : VerifyCall) (result : Except VerificationError Bool)
  | cancelled (call : VerifyCall)

/-- What a call finds when it goes on: the clock at each of its readings, and what PayPal
answers; or the call is cancelled. -/
structure ClientInput where
  cancel : Bool := false
  checkedAt : ℚ := 0
  recheckedAt : ℚ := 0
  requestedAt : ℚ := 0
  response : Except TransportError HttpResponse := .error .failed

namespace PayPalClient

abbrev holder (client : PayPalClient) : Option ℕ := client.lock.holder

/-- `_valid_cached_token`. -/
def validCachedToken (client : PayPalClient) (clock : ℚ) : Option String :=
  match client.token with
  | some g => if clock < g.refreshAt then some g.token else none
  | none => none

/-- `_discard_token`. -/
def discardToken (client : PayPalClient) (token : String) : PayPalClient :=
  match client.token with
  | some g => if g.token = token then { client with token := none } else client
  | none => client

/-- Post the verification request. -/
def send (client : PayPalClient) (i : ℕ) (call : VerifyCall) (content : ByteArray)
    (token : String) (checkedAt : ℚ) : PayPalClient × VerifyTask :=
  ({ client with traffic := client.traffic ++ [.verificationSent i token content checkedAt] },
    .verifying call content token)

/-- Wait in the queue of the token lock. -/
def joinQueue (client : PayPalClient) (i : ℕ) : PayPalClient :=
  { client with lock := client.lock.join i }

/-- Leave the queue, with the token lock or without. -/
def leaveQueue (client : PayPalClient) (i : ℕ) : PayPalClient :=
  { client with lock := client.lock.leave i }

/-- Be cancelled in the queue. -/
def cancelWaiting (client : PayPalClient) (i : ℕ) : PayPalClient :=
  { client with lock := client.lock.cancel i }

/-- Enter the token lock: another call may have fetched a token meanwhile. -/
def enterLock (client : PayPalClient) (i : ℕ) (call : VerifyCall) (content : ByteArray)
    (input : ClientInput) : PayPalClient × VerifyTask :=
  match client.validCachedToken input.recheckedAt with
  | some token => client.send i call content token input.recheckedAt
  | none =>
      ({ client with
          lock := client.lock.take i
          traffic := client.traffic ++ [.tokenRequested i input.recheckedAt] },
        .fetching call content input.requestedAt)

/-- Leave the token lock without a token. -/
def abandon (client : PayPalClient) (i : ℕ) : PayPalClient :=
  { client with lock := client.lock.release, traffic := client.traffic ++ [.tokenAbandoned i] }

/-- Cache a token, and leave the token lock. -/
def store (client : PayPalClient) (i : ℕ) (grant : TokenGrant) : PayPalClient :=
  { client with
    token := some grant
    lock := client.lock.release
    traffic := client.traffic ++ [.tokenGranted i grant] }

/-- Take the answer to a verification request. -/
def answered (client : PayPalClient) (i : ℕ) (token : String) (content : ByteArray)
    (response : Except TransportError HttpResponse) : PayPalClient :=
  let client :=
    { client with
      traffic := client.traffic ++ [.verificationAnswered i token content response] }
  match response with
  | .ok r => if r.statusCode = 401 then client.discardToken token else client
  | .error _ => client

end PayPalClient

abbrev ClientWorld := Tasks.World PayPalClient VerifyTask

namespace PayPalConfig

variable (config : PayPalConfig) (lower : String → String) (depth : ℕ)

/-- The verification request of a call. -/
def prepare (call : VerifyCall) : Except VerificationError ByteArray :=
  match config.webhookId with
  | none | some "" => .error (.configuration
      "PayPal webhook_id is not configured; cannot verify webhooks")
  | some webhookId =>
      match transmissionFields lower call.headers >>= fun transmission =>
        verificationRequestBody depth transmission webhookId call.rawBody with
      | .error e => .error (.ingestion e)
      | .ok content => .ok content

/-- `verify_webhook_signature` and `get_access_token`, up to the next await. -/
def step (i : ℕ) (client : PayPalClient) (task : VerifyTask) (input : ClientInput) :
    Option (PayPalClient × VerifyTask) :=
  match task with
  | .called call =>
      if input.cancel then some (client, .cancelled call)
      else match config.prepare lower depth call with
        | .error e => some (client, .done call (.error e))
        | .ok content =>
            match client.validCachedToken input.checkedAt with
            | some token => some (client.send i call content token input.checkedAt)
            | none =>
                if client.lock.free then some (client.enterLock i call content input)
                else some (client.joinQueue i, .waiting call content)
  | .waiting call content =>
      -- a release wakes the first call in the queue, which may be cancelled before it goes on
      if client.lock.woken = some i then
        if input.cancel then some (client.leaveQueue i, .cancelled call)
        else some ((client.leaveQueue i).enterLock i call content input)
      else if input.cancel then some (client.cancelWaiting i, .cancelling call)
      else none
  | .cancelling call => some (client.leaveQueue i, .cancelled call)
  | .fetching call content requestedAt =>
      if input.cancel then some (client.abandon i, .cancelled call)
      else match tokenOf lower requestedAt input.response with
        | .error e => some (client.abandon i, .done call (.error e))
        | .ok grant =>
            some ((client.store i grant).send i call content grant.token requestedAt)
  | .verifying call content token =>
      if input.cancel then some (client, .cancelled call)
      else some (client.answered i token content input.response,
        .done call (verdictOf input.response))
  | .done .. | .cancelled _ => none

/-- Any number of calls of one client. -/
def system : Tasks.System PayPalClient VerifyTask VerifyCall ClientInput where
  start := .called
  step := config.step lower depth

/-- The runs of a client, from its construction. -/
def clientRun (as : List (Tasks.Action VerifyCall ClientInput)) : Option ClientWorld :=
  Run.exec (config.system lower depth).worldStep ⟨{}, []⟩ as

end PayPalConfig

end RevenueRecovery
