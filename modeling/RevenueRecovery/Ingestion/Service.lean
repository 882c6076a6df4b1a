import RevenueRecovery.Database
import RevenueRecovery.Ingestion.Normalizers
import RevenueRecovery.Lib.Transaction

/-!
# Stage 1: ingestion

A webhook delivery is verified and parsed, then looked up by its source identity. A stored
record of the same payload makes it a duplicate, one of another payload a conflict. A new
delivery inserts its raw record and its canonical event and commits; when another delivery
of the identity got in between, the insert raises a conflict, and a PayPal delivery is then
resolved against the stored record while a Razorpay delivery ends with the conflict.
Deliveries of both providers interleave in any way.

## Main definitions
* `WebhookLibrary` : what verification, decoding and schema validation yield.
* `Delivery`, `Delivery.parse` : a delivery, and what is read from it.
* `ParsedDelivery.rows` : the raw record and the canonical event of a delivery.
* `ingestionStep`, `ingestionProgram`, `ingestionRun` : any interleaving of deliveries.
-/
namespace RevenueRecovery

open Transaction

/-! ## Deliveries -/

/-- What is used of cryptography, JSON and schema validation: the HMAC check, decoded bodies,
validated events, and the digest of a payload. -/
structure WebhookLibrary (Body Payload : Type) extends PythonLibrary where
  verifyRazorpaySignature : Body → String → Except IngestionError Unit
  loads : Body → Except IngestionError Payload
  loadsObject : Body → Except IngestionError Payload
  parseRazorpayEvent : Body → Except IngestionError RazorpayWebhookEvent
  parsePaypalEvent : Payload → Except IngestionError PayPalWebhookEvent
  generateDeterministicHash : Payload → Except IngestionError String

/-- A webhook request; PayPal is asked whether a request of its own is genuine. -/
inductive Delivery (Body : Type)
  | razorpay (body : Body) (signature sourceEventId : String)
  | paypal (body : Body)

/-- What a delivery finds outside of the store: the answer of PayPal's verification, the
clock, and new ids. -/
structure DeliveryInput where
  verification : Except IngestionError Bool := .ok true
  receivedAt : Time := 0
  ingestedAt : Time := 0
  recordId : ℕ := 0
  eventId : ℕ := 0

/-- A row of `raw_ingestion_records`. -/
structure RawIngestionRecord (Payload : Type) where
  id : ℕ
  sourceSystem : String
  sourceEventId : String
  receivedAt : Time
  rawPayload : Payload
  payloadHash : String

/-- What is read from a delivery. -/
structure ParsedDelivery (Payload : Type) where
  sourceSystem : String
  sourceEventId : String
  rawPayload : Payload
  payloadHash : String
  event : RazorpayWebhookEvent ⊕ PayPalWebhookEvent

section Rows
variable {Body Payload : Type} (library : WebhookLibrary Body Payload)

/-- Verify, decode and validate a delivery; `none` for a PayPal event type that is ignored. -/
def Delivery.parse (input : DeliveryInput) :
    Delivery Body → Except IngestionError (Option (ParsedDelivery Payload))
  | .razorpay body signature sourceEventId => do
      library.verifyRazorpaySignature body signature
      let event ← library.parseRazorpayEvent body
      let payload ← library.loads body
      let hash ← library.generateDeterministicHash payload
      return some ⟨razorpaySourceSystem, sourceEventId, payload, hash, .inl event⟩
  | .paypal body => do
      let verified ← input.verification
      if !verified then throw .invalidWebhookSignature
      let payload ← library.loadsObject body
      match library.parsePaypalEvent payload with
      | .error .unsupportedEventType => return none
      | .error err => throw err
      | .ok event =>
          let hash ← library.generateDeterministicHash payload
          return some ⟨paypalSourceSystem, event.eventId, payload, hash, .inr event⟩

/-- The delivery is of a PayPal webhook. -/
def Delivery.isPaypal : Delivery Body → Bool
  | .razorpay .. => false
  | .paypal _ => true

/-- The canonical event of a delivery. -/
def ParsedDelivery.normalize (p : ParsedDelivery Payload) (input : DeliveryInput) :
    Except IngestionError PaymentEvent :=
  match p.event with
  | .inl event => normalizeRazorpayEvent library.toPythonLibrary event p.sourceEventId input.eventId
      input.ingestedAt
  | .inr event => normalizePaypalEvent library.toPythonLibrary event input.eventId input.ingestedAt

/-- The raw record of a delivery. -/
def ParsedDelivery.record (p : ParsedDelivery Payload) (input : DeliveryInput) :
    RawIngestionRecord Payload :=
  { id := input.recordId
    sourceSystem := p.sourceSystem
    sourceEventId := p.sourceEventId
    receivedAt := input.receivedAt
    rawPayload := p.rawPayload
    payloadHash := p.payloadHash }

/-- The rows a new delivery inserts. -/
def ParsedDelivery.rows (p : ParsedDelivery Payload) (input : DeliveryInput) :
    Except IngestionError (RawIngestionRecord Payload × PaymentEvent) := do
  let event ← p.normalize library input
  return (p.record input, event)

end Rows

/-! ## The program -/

/-- The tables of Stage 1. -/
structure IngestionStore (Payload : Type) where
  rawRecords : List (RawIngestionRecord Payload) := []
  events : List PaymentEvent := []

/-- `get_raw_record`. -/
def IngestionStore.getRawRecord {Payload : Type} (db : IngestionStore Payload)
    (sourceSystem sourceEventId : String) : Option (RawIngestionRecord Payload) :=
  db.rawRecords.find? fun r => r.sourceSystem = sourceSystem ∧ r.sourceEventId = sourceEventId

/-- Inserting the rows would violate `uq_raw_ingestion_source_identity` or
`uq_payment_event_source_identity`. -/
def IngestionStore.conflicts {Payload : Type} (db : IngestionStore Payload)
    (record : RawIngestionRecord Payload) (event : PaymentEvent) : Bool :=
  db.rawRecords.any (fun r =>
      r.sourceSystem == record.sourceSystem && r.sourceEventId == record.sourceEventId) ||
    db.events.any fun e =>
      e.sourceSystem == event.sourceSystem && e.sourceEventId == event.sourceEventId

inductive IngestionWrite (Payload : Type)
  | insertRaw (row : RawIngestionRecord Payload)
  | insertEvent (row : PaymentEvent)

/-- Where a delivery stands, with its rows once it has them; it has `failed` with the error
of a check, or of the database. -/
inductive DeliveryProc (Body Payload : Type)
  | received (delivery : Delivery Body)
  | saving (delivery : Delivery Body) (record : RawIngestionRecord Payload) (event : PaymentEvent)
  | saved (delivery : Delivery Body) (record : RawIngestionRecord Payload) (event : PaymentEvent)
  | resolving (record : RawIngestionRecord Payload)
  | stored (delivery : Delivery Body) (record : RawIngestionRecord Payload) (event : PaymentEvent)
  | duplicate
  | ignored
  | failed (error : Option IngestionError)

/-- The unique keys of `raw_ingestion_records`. -/
def RawIngestionRecord.sameIdentity {Payload : Type} (a b : RawIngestionRecord Payload) : Bool :=
  a.id == b.id || (a.sourceSystem == b.sourceSystem && a.sourceEventId == b.sourceEventId)

theorem RawIngestionRecord.sameIdentity_comm {Payload : Type} (a b : RawIngestionRecord Payload) :
    a.sameIdentity b = b.sameIdentity a := by
  unfold sameIdentity
  grind

section Program
variable {Body Payload : Type}

def IngestionStore.apply (db : IngestionStore Payload) : IngestionWrite Payload → IngestionStore Payload
  | .insertRaw row => { db with rawRecords := db.rawRecords ++ [row] }
  | .insertEvent row => { db with events := db.events ++ [row] }

def IngestionStore.violates (db : IngestionStore Payload) : IngestionWrite Payload → Bool
  | .insertRaw row => db.rawRecords.any (·.sameIdentity row)
  | .insertEvent row => db.events.any (·.sameIdentity row)

def IngestionWrite.clashes : IngestionWrite Payload → IngestionWrite Payload → Bool
  | .insertRaw a, .insertRaw b => a.sameIdentity b
  | .insertEvent a, .insertEvent b => a.sameIdentity b
  | _, _ => false

theorem IngestionWrite.clashes_symm (a b : IngestionWrite Payload) : a.clashes b = b.clashes a := by
  cases a <;> cases b <;> simp only [clashes]
  · exact RawIngestionRecord.sameIdentity_comm _ _
  · exact PaymentEvent.sameIdentity_comm _ _

/-- A stored record decides: the same payload is a duplicate, another one a conflict. -/
def resolveExisting (existing : RawIngestionRecord Payload) (payloadHash : String) :
    DeliveryProc Body Payload :=
  if existing.payloadHash = payloadHash then .duplicate
  else .failed (some .duplicateEventConflict)

abbrev IngestionOutcome (Body Payload : Type) :=
  Outcome (IngestionWrite Payload) Unit Unit (DeliveryProc Body Payload)

variable (library : WebhookLibrary Body Payload)

/-- A delivery whose identity is stored. A Razorpay duplicate normalizes its event once more,
for the response. -/
def onExisting (d : Delivery Body) (parsed : ParsedDelivery Payload) (input : DeliveryInput)
    (existing : RawIngestionRecord Payload) : DeliveryProc Body Payload :=
  if !d.isPaypal && existing.payloadHash = parsed.payloadHash then
    match parsed.normalize library input with
    | .ok _ => .duplicate
    | .error err => .failed (some err)
  else resolveExisting existing parsed.payloadHash

/-- `save_ingestion` has raised the conflict: a PayPal delivery looks the stored record up,
a Razorpay delivery passes the conflict on. -/
def onConflict (d : Delivery Body) (record : RawIngestionRecord Payload) :
    DeliveryProc Body Payload :=
  if d.isPaypal then .resolving record else .failed (some .duplicateEventConflict)

/-- The next step of a delivery. -/
def ingestionStep (input : DeliveryInput) (reads : ℕ → IngestionStore Payload)
    (now : IngestionStore Payload) :
    DeliveryProc Body Payload → Option (IngestionOutcome Body Payload)
  | .received d =>
      match d.parse library input with
      | .error err => some (.rollback (.failed (some err)))
      | .ok none => some (.rollback .ignored)
      | .ok (some parsed) =>
          match (reads 0).getRawRecord parsed.sourceSystem parsed.sourceEventId with
          | some existing => some (.rollback (onExisting library d parsed input existing))
          | none =>
              match parsed.rows library input with
              | .error err => some (.rollback (.failed (some err)))
              | .ok (record, event) => some (.write [] (.saving d record event))
  | .saving d record event =>
      if now.conflicts record event then some (.rollback (onConflict d record))
      else some (.write [.insertRaw record, .insertEvent event] (.saved d record event))
  | .saved d record event => some (.commit (.stored d record event))
  | .resolving record =>
      match (reads 0).getRawRecord record.sourceSystem record.sourceEventId with
      | some winner => some (.rollback (resolveExisting winner record.payloadHash))
      | none => some (.rollback (.failed (some .duplicateEventConflict)))
  | _ => none

/-- Any other error of the database ends the delivery. -/
def DeliveryProc.onError : DeliveryProc Body Payload → DeliveryProc Body Payload
  | .received _ | .saving .. | .saved .. | .resolving _ => .failed none
  | ended => ended

/-- Deliveries of both providers at any time. -/
def ingestionProgram : Program (IngestionStore Payload) (IngestionWrite Payload) Unit Unit
    (DeliveryProc Body Payload) DeliveryInput (Delivery Body) where
  apply := IngestionStore.apply
  violates := IngestionStore.violates
  clashes := IngestionWrite.clashes
  clashes_symm := IngestionWrite.clashes_symm
  step p input reads now := ingestionStep library input reads now p
  onError := DeliveryProc.onError
  arrive d _ := some ([], [.received d])

abbrev IngestionSession (Body Payload : Type) :=
  Session (IngestionStore Payload) (IngestionWrite Payload) Unit (DeliveryProc Body Payload)
abbrev IngestionWorld (Body Payload : Type) :=
  World (IngestionStore Payload) (IngestionWrite Payload) Unit Unit (DeliveryProc Body Payload)
abbrev IngestionAction (Body : Type) := Action DeliveryInput (Delivery Body)

/-- Any interleaving of deliveries, from empty tables. -/
def ingestionRun (as : List (IngestionAction Body)) : Option (IngestionWorld Body Payload) :=
  Run.exec (ingestionProgram library).worldStep ⟨{}, [], []⟩ as

end Program

end RevenueRecovery
