import RevenueRecovery.Migration.Schema

/-!
# Revision A: the registry and the backfill

`Expand.upgrade` collects the attempt keys of the Stage 5-8 tables, resolves each to the
provider of its trigger event, checks all of it, and then creates the registry and
fills `source_system` from it. The work tables `p3_keys`, `p3_classified`,
`p3_candidates` and `p3_resolved` are functions of the tables.

## Main definitions
* `p3Keys`, `p3Classified`, `p3Candidates`, `p3Resolved` : the work tables.
* `preflightBeforeResolution`, `preflightAfterResolution` : PF-01 to PF-17.
* `insertRegistry`, `registryConstraints` : the registry.
* `backfill` : the new column.
* `Expand.upgrade` : Revision A.
-/
namespace RevenueRecovery.Migration

open Relational

variable {ρ : Type}

/-! ## Work tables -/

/-- `KEYED_TABLES`: the five tables that store `payment_attempt_id`. -/
inductive KeyedTable
  | predictions
  | decisions
  | commands
  | observations
  | attributions
deriving DecidableEq

/-- A row of a keyed table, as `p3_keys` reads it. -/
structure KeyRef where
  paymentAttemptId : String
  createdAt : Time
  src : KeyedTable

structure P3Key where
  attemptKey : String
  inPredictions : Bool
  inDecisions : Bool
  inCommands : Bool
  inObservations : Bool
  inAttributions : Bool
  firstCreatedAt : Option Time

def keyRefs (db : LegacyTables ρ) : List KeyRef :=
  db.predictions.map (fun r => ⟨r.paymentAttemptId, r.createdAt, .predictions⟩) ++
  db.decisions.map (fun r => ⟨r.paymentAttemptId, r.createdAt, .decisions⟩) ++
  db.commands.map (fun r => ⟨r.paymentAttemptId, r.createdAt, .commands⟩) ++
  db.observations.map (fun r => ⟨r.paymentAttemptId, r.createdAt, .observations⟩) ++
  db.attributions.map fun r => ⟨r.paymentAttemptId, r.createdAt, .attributions⟩

/-- Every key the keyed tables refer to, where it appears, and its earliest record time. -/
def p3Keys (db : LegacyTables ρ) : List P3Key :=
  ((keyRefs db).map KeyRef.paymentAttemptId).dedup.map fun key =>
    let group := (keyRefs db).filter fun r => r.paymentAttemptId = key
    { attemptKey := key
      inPredictions := group.any (·.src = .predictions)
      inDecisions := group.any (·.src = .decisions)
      inCommands := group.any (·.src = .commands)
      inObservations := group.any (·.src = .observations)
      inAttributions := group.any (·.src = .attributions)
      firstCreatedAt := (group.map KeyRef.createdAt).min? }

/-- `left(s, 13) = 'paypal-order:'`. -/
def inPaypalNamespace (s : String) : Bool := leftChars s 13 == "paypal-order:"

structure P3Classified where
  attemptKey : String
  paypalNamespace : Bool
  providerReference : String

/-- The namespace of a key and the provider reference in it. -/
def classify (attemptKey : String) : P3Classified where
  attemptKey := attemptKey
  paypalNamespace := inPaypalNamespace attemptKey
  providerReference :=
    if inPaypalNamespace attemptKey then substrFrom attemptKey 14 else attemptKey

def p3Classified (db : LegacyTables ρ) : List P3Classified :=
  (p3Keys db).map fun k => classify k.attemptKey

structure P3Candidate where
  attemptKey : String
  eventId : Uuid
  sourceSystem : String
  paymentId : String
  ingestedAt : Time

/-- The event may be the trigger of the key. -/
def P3Classified.accepts (c : P3Classified) (e : EventRow ρ) : Bool :=
  e.paymentId == c.providerReference &&
    ((c.paypalNamespace && e.sourceSystem == "paypal" && e.eventType == "order.approved") ||
      (!c.paypalNamespace && e.sourceSystem != "paypal" && e.eventType == "payment.authorized"))

def p3Candidates (db : LegacyTables ρ) : List P3Candidate :=
  (join P3Classified.accepts (p3Classified db) db.events).map fun (c, e) =>
    ⟨c.attemptKey, e.eventId, e.sourceSystem, e.paymentId, e.ingestedAt⟩

structure P3Resolved where
  attemptKey : String
  sourceSystem : String
  providerReference : String
  triggerEventId : Uuid

/-- `ORDER BY ingested_at, event_id`. -/
def P3Candidate.order (t : P3Candidate) : ℤ ×ₗ ℕ := toLex (t.ingestedAt, t.eventId.toNat)

/-- The earliest trigger of each key. -/
def p3Resolved (db : LegacyTables ρ) : List P3Resolved :=
  (distinctOn P3Candidate.attemptKey P3Candidate.order (p3Candidates db)).map fun t =>
    ⟨t.attemptKey, t.sourceSystem, t.paymentId, t.eventId⟩

/-! ## Preflights -/

/-- `SOURCE_SYSTEM_CHECK`. -/
def supportedSources : List String := ["razorpay", "synthetic", "paypal"]

def pf01 (db : LegacyTables ρ) : Preflight where
  code := "PF-01"
  description := "trigger events must come from a supported provider (razorpay, synthetic, paypal)"
  query := ((((p3Candidates db).filter fun t => t.sourceSystem ∉ supportedSources).map fun t =>
    t.attemptKey ++ " source_system=" ++ t.sourceSystem).dedup).map some

def pf02 (db : LegacyTables ρ) : Preflight where
  code := "PF-02"
  description := "attempt keys must be well formed"
  query := ((p3Classified db).filter fun c => c.attemptKey == "" ||
    (c.paypalNamespace && !matchesPaypalIdentifier c.providerReference)).map fun c =>
      some (quoteLiteral c.attemptKey)

def pf03 (db : LegacyTables ρ) : Preflight where
  code := "PF-03"
  description := "no non-PayPal payment event may use the PayPal attempt namespace"
  query := (db.events.filter fun e => e.sourceSystem != "paypal" &&
    inPaypalNamespace e.paymentId).map fun e => some e.eventId.text

def pf04 (db : LegacyTables ρ) : Preflight where
  code := "PF-04"
  description := "every attempt key needs a valid trigger event"
  query := ((p3Classified db).filter fun c =>
    !(p3Candidates db).any (·.attemptKey == c.attemptKey)).map fun c => some c.attemptKey

/-- The distinct sources of the candidates of a key, in order. -/
def candidateSources (db : LegacyTables ρ) (key : String) : List String :=
  ((((p3Candidates db).filter (·.attemptKey == key)).map
    P3Candidate.sourceSystem).dedup).insertionSort (· ≤ ·)

def pf05 (db : LegacyTables ρ) : Preflight where
  code := "PF-05"
  description := "every attempt key must resolve to exactly one provider"
  query := ((((p3Candidates db).map P3Candidate.attemptKey).dedup).filter fun key =>
    1 < (candidateSources db key).length).map fun key =>
      some (key ++ " sources=" ++ ",".intercalate (candidateSources db key))

def pf06 (db : LegacyTables ρ) : Preflight where
  code := "PF-06"
  description := "observation and attribution keys must belong to a command"
  query := ((p3Keys db).filter fun k =>
    (k.inObservations || k.inAttributions) && !k.inCommands).map fun k => some k.attemptKey

def pf07 (db : LegacyTables ρ) : Preflight where
  code := "PF-07"
  description := "a decision's stage5_prediction_id must exist"
  query := (db.decisions.filter fun d => d.stage5PredictionId.isSome &&
    !db.predictions.any (some ·.predictionId == d.stage5PredictionId)).map fun d =>
      some d.decisionId.text

def pf08 (db : LegacyTables ρ) : Preflight where
  code := "PF-08"
  description := "a decision and its prediction must share the attempt key"
  query := ((join (fun d p => some p.predictionId == d.stage5PredictionId) db.decisions
    db.predictions).filter fun (d, p) => p.paymentAttemptId != d.paymentAttemptId).map
      fun (d, _) => some d.decisionId.text

def pf09 (db : LegacyTables ρ) : Preflight where
  code := "PF-09"
  description := "a command's decision must exist"
  query := (db.commands.filter fun c =>
    !db.decisions.any (·.decisionId == c.decisionId)).map fun c => some c.commandId.text

def pf10 (db : LegacyTables ρ) : Preflight where
  code := "PF-10"
  description := "a command must match its decision's attempt key and version"
  query := ((join (fun c d => d.decisionId == c.decisionId) db.commands db.decisions).filter
    fun (c, d) => d.paymentAttemptId != c.paymentAttemptId ||
      d.decisionVersion != c.decisionVersion).map fun (c, _) => some c.commandId.text

def pf11 (db : LegacyTables ρ) : Preflight where
  code := "PF-11"
  description := "an execution attempt's command must exist"
  query := (db.executionAttempts.filter fun ea =>
    !db.commands.any (·.commandId == ea.commandId)).map fun ea => some ea.attemptId.text

def pf12 (db : LegacyTables ρ) : Preflight where
  code := "PF-12"
  description := "an observation's command must exist and share the attempt key"
  query := ((leftJoin (fun o c => c.commandId == o.commandId) db.observations
    db.commands).filter fun (o, c) => match c with
      | none => true
      | some c => c.paymentAttemptId != o.paymentAttemptId).map fun (o, c) =>
        some (o.observationId.text ++
          if c.isNone then " command missing" else " key differs from command")

def pf13 (db : LegacyTables ρ) : Preflight where
  code := "PF-13"
  description := "an attribution must match its command's decision and attempt key"
  query := ((leftJoin (fun a c => c.commandId == a.commandId) db.attributions
    db.commands).filter fun (a, c) => match c with
      | none => true
      | some c => c.decisionId != a.decisionId || c.paymentAttemptId != a.paymentAttemptId).map
        fun (a, c) => some (a.attributionId.text ++ match c with
          | none => " command missing"
          | some c => if c.decisionId ≠ a.decisionId then " decision_id differs from command"
              else " key differs from command")

def pf14 (db : LegacyTables ρ) : Preflight where
  code := "PF-14"
  description := "an attribution's decision must exist and share the attempt key"
  query := ((leftJoin (fun a d => d.decisionId == a.decisionId) db.attributions
    db.decisions).filter fun (a, d) => match d with
      | none => true
      | some d => d.paymentAttemptId != a.paymentAttemptId).map fun (a, _) =>
        some a.attributionId.text

/-- `event_type IN ('payment.captured', 'payment.failed')`. -/
def isTerminalType (eventType : String) : Bool :=
  ["payment.captured", "payment.failed"].contains eventType

/-- The event is a terminal event of the resolved attempt. -/
def P3Resolved.ownsTerminal (r : P3Resolved) (e : EventRow ρ) : Bool :=
  e.sourceSystem == r.sourceSystem && isTerminalType e.eventType &&
    (if r.sourceSystem = "paypal" then e.orderId == some r.providerReference
      else e.paymentId == r.providerReference)

def pf15 (db : LegacyTables ρ) : Preflight where
  code := "PF-15"
  description :=
    "an observed terminal event must be a terminal event of the attempt's own provider and reference"
  query := ((leftJoin (fun (o, _) e => some e.eventId == o.terminalEventId)
    ((join (fun o r => r.attemptKey == o.paymentAttemptId) db.observations (p3Resolved db)).filter
      fun (o, _) => o.terminalEventId.isSome) db.events).filter fun ((_, r), e) => match e with
        | none => true
        | some e => !r.ownsTerminal e).map fun ((o, r), e) =>
          some (o.observationId.text ++ match e with
            | none => " terminal event missing"
            | some e =>
                if e.sourceSystem ≠ r.sourceSystem then
                  " terminal event provider " ++ e.sourceSystem ++ " differs from " ++ r.sourceSystem
                else if !isTerminalType e.eventType then " not a terminal event"
                else " terminal event belongs to another attempt")

def pf16 (db : LegacyTables ρ) : Preflight where
  code := "PF-16"
  description := "registry identities (source_system, provider_reference) must be unique"
  query := (duplicates ((p3Resolved db).map fun r => (r.sourceSystem, r.providerReference))).map
    fun (sourceSystem, providerReference) => some (sourceSystem ++ ":" ++ providerReference)

def pf17 (db : LegacyTables ρ) : Preflight where
  code := "PF-17"
  description := "resolved identities must satisfy the registry provider and namespace constraints"
  query := ((join (fun r c => r.attemptKey == c.attemptKey) (p3Resolved db)
    (p3Classified db)).filter fun (r, c) => (r.sourceSystem == "paypal") != c.paypalNamespace ||
      r.providerReference != c.providerReference || r.sourceSystem ∉ supportedSources).map
        fun (r, _) => some r.attemptKey

def preflightBeforeResolution (db : LegacyTables ρ) : List Preflight :=
  [pf01 db, pf02 db, pf03 db, pf04 db, pf05 db, pf06 db, pf07 db, pf08 db, pf09 db, pf10 db,
    pf11 db, pf12 db, pf13 db, pf14 db]

def preflightAfterResolution (db : LegacyTables ρ) : List Preflight := [pf15 db, pf16 db, pf17 db]

/-! ## The registry -/

/-- `NAMESPACE_CHECK`. -/
def PaymentAttemptRow.namespaceCheck (r : PaymentAttemptRow) : Bool :=
  if r.sourceSystem = "paypal" then
    matchesPaypalIdentifier r.providerReference &&
      r.paymentAttemptId == "paypal-order:" ++ r.providerReference
  else
    r.providerReference != "" && r.paymentAttemptId == r.providerReference &&
      leftChars r.paymentAttemptId 13 != "paypal-order:"

def insertRegistry (resolved : List P3Resolved) (keys : List P3Key) : List PaymentAttemptRow :=
  (join (fun r k => r.attemptKey == k.attemptKey) resolved keys).map fun (r, k) =>
    ⟨r.attemptKey, r.sourceSystem, r.providerReference, r.triggerEventId, k.firstCreatedAt⟩

/-- The constraints of the new table. -/
def registryConstraints (events : List (EventRow ρ)) (registry : List PaymentAttemptRow) :
    List (Check MigrationError) :=
  [constraint "payment_attempts.payment_attempt_id"
      (FitsVarchar 255 PaymentAttemptRow.paymentAttemptId registry),
    constraint "payment_attempts.source_system"
      (FitsVarchar 50 PaymentAttemptRow.sourceSystem registry),
    constraint "payment_attempts.provider_reference"
      (FitsVarchar 255 PaymentAttemptRow.providerReference registry),
    constraint "payment_attempts.registered_at" (∀ r ∈ registry, r.registeredAt.isSome),
    constraint "payment_attempts_pkey" (Unique (fun r => some r.paymentAttemptId) registry),
    constraint "uq_payment_attempt_provider"
      (Unique (fun r => some (r.paymentAttemptId, r.sourceSystem)) registry),
    constraint "uq_payment_attempt_reference"
      (Unique (fun r => some (r.sourceSystem, r.providerReference)) registry),
    constraint "ck_payment_attempt_source_system"
      (∀ r ∈ registry, r.sourceSystem ∈ supportedSources),
    constraint "ck_payment_attempt_namespace" (∀ r ∈ registry, r.namespaceCheck = true),
    constraint "fk_payment_attempt_trigger"
      (References (fun r => some (r.triggerEventId, r.sourceSystem)) registry
        (fun e => some (e.eventId, e.sourceSystem)) events)]

def pf18 (keys : List P3Key) (registry : List PaymentAttemptRow) : Preflight where
  code := "PF-18"
  description := "every referenced attempt key must be registered"
  query := (keys.filter fun k => !registry.any (·.paymentAttemptId == k.attemptKey)).map fun k =>
    some k.attemptKey

/-! ## The backfill -/

section Backfill
variable {α : Type}

/-- `ADD COLUMN source_system`. -/
def addSourceSystem (rows : List α) : List (Sourced α) := rows.map fun r => ⟨r, none⟩

def backfillKeyedTable (paymentAttemptId : α → String) (registry : List PaymentAttemptRow)
    (rows : List (Sourced α)) : List (Sourced α) :=
  updateFrom registry (fun t pa => pa.paymentAttemptId == paymentAttemptId t.row)
    (fun t pa => { t with sourceSystem := some pa.sourceSystem }) rows

def backfillExecutionAttempts (commands : List (Sourced (CommandRow ρ)))
    (rows : List (Sourced (ExecutionAttemptRow ρ))) : List (Sourced (ExecutionAttemptRow ρ)) :=
  updateFrom commands (fun ea c => c.row.commandId == ea.row.commandId)
    (fun ea c => { ea with sourceSystem := c.sourceSystem }) rows

def pf19 (table : String) (pk : α → Uuid) (rows : List (Sourced α)) : Preflight where
  code := "PF-19"
  description := "every " ++ table ++ " row must have a source_system"
  query := (rows.filter (·.sourceSystem.isNone)).map fun r => some (pk r.row).text

end Backfill

def backfill (registry : List PaymentAttemptRow) (db : LegacyTables ρ) : ExpandedTables ρ :=
  let commands :=
    backfillKeyedTable CommandRow.paymentAttemptId registry (addSourceSystem db.commands)
  { events := db.events
    paymentAttempts := registry
    predictions :=
      backfillKeyedTable PredictionRow.paymentAttemptId registry (addSourceSystem db.predictions)
    decisions :=
      backfillKeyedTable DecisionRow.paymentAttemptId registry (addSourceSystem db.decisions)
    commands := commands
    executionAttempts :=
      backfillExecutionAttempts commands (addSourceSystem db.executionAttempts)
    observations :=
      backfillKeyedTable ObservationRow.paymentAttemptId registry (addSourceSystem db.observations)
    attributions :=
      backfillKeyedTable AttributionRow.paymentAttemptId registry
        (addSourceSystem db.attributions) }

/-- The last preflight, for each of the six tables. -/
def preflightAfterBackfill (db : ExpandedTables ρ) : List Preflight :=
  [pf19 "failure_predictions" PredictionRow.predictionId db.predictions,
    pf19 "intervention_decisions" DecisionRow.decisionId db.decisions,
    pf19 "intervention_commands" CommandRow.commandId db.commands,
    pf19 "payment_outcome_observations" ObservationRow.observationId db.observations,
    pf19 "counterfactual_attributions" AttributionRow.attributionId db.attributions,
    pf19 "intervention_execution_attempts" ExecutionAttemptRow.attemptId db.executionAttempts]

/-! ## The revision -/

/-- The registry of the resolved keys. -/
def registry (db : LegacyTables ρ) : List PaymentAttemptRow :=
  insertRegistry (p3Resolved db) (p3Keys db)

/-- Validate the Stage 5-8 data, then create and backfill the provider registry. The report of
late triggers after PF-17 only logs. -/
def Expand.upgrade (db : LegacyTables ρ) : Except MigrationError (ExpandedTables ρ) := do
  requireAll ((preflightBeforeResolution db).map Preflight.check)
  requireAll ((preflightAfterResolution db).map Preflight.check)
  requireAll [constraint "uq_payment_event_provider"
    (Unique (fun e => some (e.eventId, e.sourceSystem)) db.events)]
  requireAll (registryConstraints db.events (registry db))
  requireAll [(pf18 (p3Keys db) (registry db)).check]
  requireAll ((preflightAfterBackfill (backfill (registry db) db)).map Preflight.check)
  return backfill (registry db) db

end RevenueRecovery.Migration
