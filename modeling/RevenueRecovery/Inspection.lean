import Mathlib.Algebra.Ring.Int.Defs
import Mathlib.Data.String.Basic
import RevenueRecovery.Database
import RevenueRecovery.Lib.Relational

/-!
# The inspection queries

What the dashboard reads: the protected GMV by currency, the recovery ledger and the payments
list. Decisions, observations, attempts and attributions are append-only, so a query that wants
one row restricts each of these tables to the latest version of its group.

## Main definitions
* `latestAttributionIds`, … : the newest version of each group.
* `paymentCurrency` : the currency of each payment attempt.
* `protectedGmvByCurrency` : the amounts of the latest attributions, by currency.
* `ledgerRows`, `ledgerCount` : the recovery ledger and its `total_count`.
* `paymentRows`, `paymentCount` : the payments list and its `total_count`.
-/
namespace RevenueRecovery

open Relational

/-! ## Latest versions -/

/-- The ids of the newest version of each group: `_latest_version_ids`. -/
def latestVersionIds {α ι κ : Type} [DecidableEq κ] (id : α → ι) (group : α → κ)
    (version : α → ℕ) (rows : List α) : List ι := (latestVersions group version rows).map id

def latestAttributionIds (db : Database) : List AttributionId :=
  latestVersionIds (·.attributionId) (·.commandId) (·.attributionVersion) db.attributions

def latestObservationIds (db : Database) : List ObservationId :=
  latestVersionIds (·.observationId) (·.commandId) (·.observationVersion) db.observations

/-- An execution attempt is identified by its command and number. -/
def ExecutionAttempt.attemptId (x : ExecutionAttempt) : CommandId × ℕ :=
  (x.commandId, x.attemptNumber)

def latestAttemptIds (db : Database) : List (CommandId × ℕ) :=
  latestVersionIds (·.attemptId) (·.commandId) (·.attemptNumber) db.executionAttempts

def latestDecisionIds (db : Database) : List DecisionId :=
  latestVersionIds (·.decisionId) (·.paymentAttemptId) (·.decisionVersion) db.decisions

/-! ## Currencies -/

/-- The events Stage 8 sizes an attempt by, as attempt and currency. -/
def sizingEvents (db : Database) : List (String × String) :=
  ((db.events.filter fun e => e.eventType = pipelineTriggerEventType ∧ e.inRazorpayPipeline).map
      fun e => (e.paymentId, e.currency)) ++
    (db.events.filter fun e => e.eventType = paypalTriggerEventType ∧
      e.sourceSystem = paypalSourceSystem).map
      fun e => (paypalAttemptPrefix ++ e.paymentId, e.currency)

/-- The currency of each attempt with a sizing event, `NULL` when these disagree. -/
def paymentCurrency (db : Database) : List (String × Option String) :=
  ((sizingEvents db).map Prod.fst).dedup.map fun paymentId =>
    let currencies := ((sizingEvents db).filter fun s => s.1 = paymentId).map Prod.snd
    (paymentId, if currencies.dedup.length = 1 then currencies.min? else none)

/-! ## Protected GMV -/

/-- The amounts of one currency, and the provenance of the attributions behind them. -/
structure CurrencyGroup where
  currency : Option String
  amountMinorUnits : ℤ
  positiveAttributionCount : ℕ
  simulatedExecutionCount : ℕ
  syntheticBaselineCount : ℕ
deriving DecidableEq, Repr

/-- A row of the attributions joined with their currency and, where it is asked for, with
their decision. -/
structure AttributedRow where
  attribution : CounterfactualAttribution
  currency : Option String
  decision : Option InterventionDecision
deriving DecidableEq, Repr

def attributedRows (db : Database) (joinDecisions : Bool) : List AttributedRow :=
  let currencies := leftJoin (fun (a : CounterfactualAttribution) (c : String × Option String) =>
    c.1 = a.paymentAttemptId) db.attributions (paymentCurrency db)
  let rows := currencies.map fun r => (⟨r.1, r.2.bind Prod.snd, none⟩ : AttributedRow)
  if joinDecisions then
    (join (fun r d => r.attribution.decisionId = d.decisionId) rows db.decisions).map
      fun p => { p.1 with decision := some p.2 }
  else rows

/-- `GROUP BY currency`. -/
def currencyGroup (rows : List AttributedRow) (currency : Option String) : CurrencyGroup :=
  let attributions := (rows.filter fun r => r.currency = currency).map (·.attribution)
  let positive := attributions.filter fun a => a.attributedProtectedGmvMinorUnits > 0
  { currency := currency
    amountMinorUnits := (attributions.map (·.attributedProtectedGmvMinorUnits)).sum
    positiveAttributionCount := positive.length
    simulatedExecutionCount := (positive.filter (·.isSimulatedExecution)).length
    syntheticBaselineCount := (positive.filter (·.isSyntheticBaseline)).length }

/-- The distinct currencies in order, `NULL` last. -/
def currencyOrder (currencies : List (Option String)) : List (Option String) :=
  ((currencies.reduceOption.dedup.insertionSort (· ≤ ·)).map some) ++
    if none ∈ currencies then [none] else []

/-- The protected GMV of the latest attributions that meet the conditions, by currency. -/
def protectedGmvByCurrency (db : Database)
    (conditions : AttributedRow → Bool := fun _ => true) (joinDecisions : Bool := false) :
    List CurrencyGroup :=
  let rows := (attributedRows db joinDecisions).filter fun r =>
    r.attribution.attributionId ∈ latestAttributionIds db ∧ conditions r
  (currencyOrder (rows.map (·.currency))).map (currencyGroup rows)

/-! ## Recovery ledger -/

/-- The stored value of a decision type. -/
def DecisionType.value : DecisionType → String
  | noAction => "NO_ACTION"
  | monitor => "MONITOR"
  | act => "ACT"

/-- The rows a ledger row shows columns of. -/
structure LedgerRow where
  decision : InterventionDecision
  command : Option InterventionCommand
  observation : Option PaymentOutcomeObservation
  attribution : Option CounterfactualAttribution
  attempt : Option ExecutionAttempt
  currency : Option String
deriving DecidableEq, Repr

/-- The joined command, which may be `NULL`, has the id. -/
def hasCommandId (command : Option InterventionCommand) (id : CommandId) : Bool :=
  command.any fun c => c.commandId = id

/-- Decisions with their command, its latest observation, the decision's latest attribution,
the command's latest attempt and the currency of the payment attempt. -/
def ledgerJoins (db : Database) : List LedgerRow :=
  let commands := leftJoin (fun (d : InterventionDecision) (c : InterventionCommand) =>
    c.decisionId = d.decisionId) db.decisions db.commands
  let observations := leftJoin (fun r (o : PaymentOutcomeObservation) =>
    hasCommandId r.2 o.commandId ∧ o.observationId ∈ latestObservationIds db)
    commands db.observations
  let attributions := leftJoin (fun r (a : CounterfactualAttribution) =>
    a.decisionId = r.1.1.decisionId ∧ a.attributionId ∈ latestAttributionIds db)
    observations db.attributions
  let attempts := leftJoin (fun r (x : ExecutionAttempt) =>
    hasCommandId r.1.1.2 x.commandId ∧ x.attemptId ∈ latestAttemptIds db)
    attributions db.executionAttempts
  let currencies := leftJoin (fun r (c : String × Option String) =>
    c.1 = r.1.1.1.1.paymentAttemptId) attempts (paymentCurrency db)
  currencies.map fun r => ⟨r.1.1.1.1.1, r.1.1.1.1.2, r.1.1.1.2, r.1.1.2, r.1.2, r.2.bind Prod.snd⟩

/-- The filter of the request, in upper case; `none` when it is missing or empty. -/
def ofDecisionType (decisionType : Option String) (d : InterventionDecision) : Bool :=
  decisionType.all fun dtUpper => d.decisionType.value = dtUpper

def ledgerRows (db : Database) (decisionType : Option String := none) : List LedgerRow :=
  (ledgerJoins db).filter fun r => ofDecisionType decisionType r.decision

def ledgerCount (db : Database) (decisionType : Option String := none) : ℕ :=
  (db.decisions.filter (ofDecisionType decisionType)).length

/-! ## Payments list -/

/-- The terminal status of each payment with a terminal event. -/
def terminalStatuses (db : Database) : List (String × Option String) :=
  let terminal := db.events.filter fun e =>
    e.eventType ∈ terminalEventTypes ∧ e.inRazorpayPipeline
  (terminal.map (·.paymentId)).dedup.map fun paymentId =>
    (paymentId, ((terminal.filter fun e => e.paymentId = paymentId).map (·.paymentStatus)).max?)

/-- One of the earliest events of each payment: `DISTINCT ON` picks any of those that tie. -/
def canonicalEvents (order : ℕ → ℕ) (db : Database) : List ℕ :=
  (distinctOn (·.paymentId) (·.timestamp)
    (Table.scan order (db.events.filter (·.inRazorpayPipeline)))).map (·.eventId)

/-- The filters of the request: the `ILIKE` pattern on the payment id, the upper-case
`filter_type` and the lower-case `status`; a missing or empty one does not filter. -/
structure PaymentsQuery where
  search : String → Bool := fun _ => true
  filterType : Option String := none
  status : Option String := none

/-- An event with its payment's terminal status, latest decision and the latest attribution
of that decision. -/
structure PaymentJoin where
  event : PaymentEvent
  terminal : Option (String × Option String)
  decision : Option InterventionDecision
  attribution : Option CounterfactualAttribution
deriving DecidableEq, Repr

def paymentJoins (db : Database) : List PaymentJoin :=
  let terminals := leftJoin (fun (e : PaymentEvent) (t : String × Option String) =>
    t.1 = e.paymentId) db.events (terminalStatuses db)
  let decisions := leftJoin (fun r (d : InterventionDecision) =>
    d.paymentAttemptId = r.1.paymentId ∧ d.decisionId ∈ latestDecisionIds db)
    terminals db.decisions
  let attributions := leftJoin (fun r (a : CounterfactualAttribution) =>
    r.2.any (fun d => a.decisionId = d.decisionId) ∧ a.attributionId ∈ latestAttributionIds db)
    decisions db.attributions
  attributions.map fun r => ⟨r.1.1.1, r.1.1.2, r.1.2, r.2⟩

/-- `coalesce(terminal_status, payment_status)`. -/
def PaymentJoin.finalStatus (r : PaymentJoin) : String :=
  (r.terminal.bind Prod.snd).getD r.event.paymentStatus

/-- The row passes the filters. -/
def PaymentJoin.passes (q : PaymentsQuery) (r : PaymentJoin) : Bool :=
  q.search r.event.paymentId &&
    (if q.filterType = some "INTERVENED" then r.decision.isSome
      else if q.filterType = some "ATTRIBUTED" then
        r.attribution.any fun a => a.attributionStatus = .attributed
      else true) &&
    q.status.all fun stLower => r.finalStatus = stLower

/-- The columns of an item of the list. -/
structure PaymentRow where
  paymentId : String
  timestamp : Time
  amountMinorUnits : ℤ
  currency : String
  paymentMethod : Option String
  bank : Option String
  wallet : Option String
  paymentStatus : String
  terminalStatus : Option String
  decision : Option (DecisionType × DecisionId)
  attribution : Option CounterfactualAttribution
deriving DecidableEq, Repr

def PaymentJoin.row (r : PaymentJoin) : PaymentRow where
  paymentId := r.event.paymentId
  timestamp := r.event.timestamp
  amountMinorUnits := r.event.amountMinorUnits
  currency := r.event.currency
  paymentMethod := r.event.paymentMethod
  bank := r.event.bank
  wallet := r.event.wallet
  paymentStatus := r.event.paymentStatus
  terminalStatus := r.terminal.bind Prod.snd
  decision := r.decision.map fun d => (d.decisionType, d.decisionId)
  attribution := r.attribution

/-- The joined rows of the canonical events that pass the filters. -/
def selectedJoins (order : ℕ → ℕ) (db : Database) (q : PaymentsQuery) : List PaymentJoin :=
  (paymentJoins db).filter fun r => r.event.eventId ∈ canonicalEvents order db ∧ r.passes q

def paymentRows (order : ℕ → ℕ) (db : Database) (q : PaymentsQuery := {}) : List PaymentRow :=
  (selectedJoins order db q).map (·.row)

def paymentCount (order : ℕ → ℕ) (db : Database) (q : PaymentsQuery := {}) : ℕ :=
  (selectedJoins order db q).length

end RevenueRecovery
