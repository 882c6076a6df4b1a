import RevenueRecovery.Lib.Tenure
import RevenueRecovery.Prediction.Features
import RevenueRecovery.Prediction.Labels
import RevenueRecovery.RootCause.Service

/-!
# Stage 5: training on provider events

A validator of the provider population extracts its dataset inside one transaction of its
session, refuses a window that generated events may have shaped, and remembers the
fingerprint of what it returned. A model is trained only on arguments with that fingerprint.

What the world does to the session is given by a sequence of awaits: each says which
isolation level a transaction that begins in it has, what its statements read, whether it
raises, and what becomes of the transaction meanwhile. Fitting the model, which is done by a
library, is a parameter, and so is the hash.

## Main definitions
* `Session`, `Await` : the database session, and what a call awaits of it.
* `computeDatasetFingerprint` : the fingerprint of samples, labels and times.
* `extractDataset` : the extraction of a checked dataset.
* `runPipeline` : the training of a provider model.
* `Call.perform` : the calls of a validator in any order.
-/
namespace RevenueRecovery.Training

open Tenure

/-! ## Errors -/

inductive TrainingError
  | extraction (e : ExtractionError)
  | contamination
  | database
  | misaligned
  | naiveTime
  | notSerializable
  | invalidLabel
  | uncheckedDataset
  | noSamples
  | datasetMismatch
  | temporalLeakage
  | training
deriving DecidableEq, Repr

/-! ## Datasets -/

/-- A value of a feature. A list or an object is given by its JSON text, which a value that
is not serializable lacks. -/
inductive FeatureValue
  | null
  | bool (b : Bool)
  | int (n : ℤ)
  | float (q : ℚ)
  | str (s : String)
  | nested (json : Option String)
deriving DecidableEq, Repr

namespace FeatureValue

def isSerializable : FeatureValue → Bool
  | nested none => false
  | _ => true

def ofOption {α : Type} (f : α → FeatureValue) (v : Option α) : FeatureValue := v.elim null f

end FeatureValue

/-- A dictionary of features. -/
abbrev Sample := List (String × FeatureValue)

/-- A label as a caller may give it; any other object is what `int` makes of it. -/
inductive Label
  | int (n : ℤ)
  | bool (b : Bool)
  | float (q : ℚ)
  | object (int : Option ℤ)
deriving DecidableEq, Repr

/-- `int(label)`, which drops the fractional part. -/
def Label.toInt : Label → Option ℤ
  | int n => some n
  | bool b => some b.toInt
  | float q => some (q.num.tdiv q.den)
  | object n => n

/-- A `datetime`: its wall clock, and the offset from UTC of an aware one. -/
structure Datetime where
  wallClock : Time
  utcoffset : Option ℤ
deriving DecidableEq, Repr

namespace Datetime

def utc (t : Time) : Datetime := ⟨t, some 0⟩

/-- `astimezone(timezone.utc)`. -/
def instant (t : Datetime) : Option Time := t.utcoffset.map (t.wallClock - ·)

end Datetime

/-- Samples, labels and sample times, `X_raw`, `y_raw` and `times`. -/
structure Dataset where
  samples : List Sample := []
  labels : List Label := []
  times : List Datetime := []
deriving DecidableEq, Repr

def Dataset.push (x : Sample) (y : Label) (t : Datetime) (d : Dataset) : Dataset :=
  ⟨x :: d.samples, y :: d.labels, t :: d.times⟩

/-! ## The fingerprint -/

/-- What the fingerprint digests of a sample: the features by key, the integer label, and
the instant. -/
structure CanonicalRow where
  features : Sample
  label : ℤ
  time : Time
deriving DecidableEq, Repr

def canonicalRow (x : Sample) (y : Label) (t : Datetime) : Except TrainingError CanonicalRow :=
  match y.toInt, t.instant with
  | some label, some time =>
      if x.all fun field => field.2.isSerializable then
        .ok ⟨x.insertionSort fun f g => f.1 ≤ g.1, label, time⟩
      else .error .notSerializable
  | none, _ => .error .invalidLabel
  | _, none => .error .naiveTime

/-- The canonical rows, in order. -/
def canonicalRows : List Sample → List Label → List Datetime →
    Except TrainingError (List CanonicalRow)
  | x :: xs, y :: ys, t :: ts => do
      let row ← canonicalRow x y t
      let rows ← canonicalRows xs ys ts
      return row :: rows
  | _, _, _ => return []

section Fingerprint
variable {F : Type} (sha256 : List CanonicalRow → F)

def computeDatasetFingerprint (d : Dataset) : Except TrainingError F := do
  if ¬ (d.samples.length = d.labels.length ∧ d.labels.length = d.times.length) then
    throw .misaligned
  if d.times.any (·.instant.isNone) then
    throw .naiveTime
  let rows ← canonicalRows d.samples d.labels d.times
  return sha256 rows

end Fingerprint

/-! ## Sessions -/

/-- Isolation levels, as `SHOW transaction_isolation` reports them. -/
inductive IsolationLevel
  | readUncommitted
  | readCommitted
  | repeatableRead
  | serializable
deriving DecidableEq, Repr

/-- The levels whose statements all read one snapshot. -/
def IsolationLevel.isSnapshot : IsolationLevel → Bool
  | repeatableRead | serializable => true
  | readUncommitted | readCommitted => false

/-- What becomes of a session's transaction while a call waits. -/
inductive Loss
  | deactivated
  | ended
deriving DecidableEq, Repr

/-- What the world does while a call waits for the database: the level of a transaction that
begins, what the statements read, whether the call raises, the loss of the transaction, and
the one that code outside the validator begins after its end. -/
structure Await where
  isolationLevel : IsolationLevel
  reads : Reads
  raises : Bool := false
  loss : Option Loss := none
  successor : Option (IsolationLevel × Database) := none

/-- A transaction, known by its identity, with the store its snapshot holds. -/
structure SessionTransaction where
  id : ℕ
  isolationLevel : IsolationLevel
  snapshot : Database
  isActive : Bool := true

/-- What the statements of a call read in the transaction: its snapshot, when it has one and
was not lost meanwhile. -/
def SessionTransaction.reads (t : SessionTransaction) (a : Await) : Reads :=
  if a.loss.isNone && t.isolationLevel.isSnapshot then
    { a.reads with db := fun _ => t.snapshot }
  else a.reads

/-- A session: its transaction, the numbers of transactions begun and of awaits, and the
transactions its calls ran in, the latest first. -/
structure Session where
  transaction : Option SessionTransaction := none
  begun : ℕ := 0
  awaited : ℕ := 0
  ran : List ℕ := []

namespace Session

/-- Begin a transaction; no other has had its identity. -/
def begin (isolationLevel : IsolationLevel) (snapshot : Database) (s : Session) : Session :=
  { s with transaction := some ⟨s.begun, isolationLevel, snapshot, true⟩, begun := s.begun + 1 }

/-- A statement begins a transaction when the session has none. -/
def autobegin (a : Await) (s : Session) : Session :=
  match s.transaction with
  | some _ => s
  | none => s.begin a.isolationLevel (a.reads.db 0)

/-- The loss of the transaction, and its successor. -/
def settle (loss : Option Loss) (successor : Option (IsolationLevel × Database))
    (s : Session) : Session :=
  match loss, successor with
  | none, _ => s
  | some .deactivated, _ =>
      { s with transaction := s.transaction.map fun t => { t with isActive := false } }
  | some .ended, none => { s with transaction := none }
  | some .ended, some (isolationLevel, snapshot) => s.begin isolationLevel snapshot

/-- `_snapshot_is_current` for the snapshot transaction `transaction`. -/
def snapshotIsCurrent (transaction : ℕ) (s : Session) : Bool :=
  s.transaction.any fun t => t.id == transaction && t.isActive

/-- The validator of the provider population as its session stands. -/
def validator (transaction : ℕ) (s : Session) : Stage5PipelineValidator :=
  ⟨.providerEvaluation, s.snapshotIsCurrent transaction⟩

end Session

/-- Calls that use the session. -/
abbrev SessionM := Fallible TrainingError Session

/-- Wait for the answer of the database in the session's transaction. -/
def await {α : Type} (a : Await) (f : SessionTransaction → Reads → α) : SessionM α := fun s =>
  let s := { s.autobegin a with awaited := s.awaited + 1 }
  match s.transaction with
  | none => (.error .database, s)
  | some t =>
      if t.isActive then
        (if a.raises then .error .database else .ok (f t (t.reads a)),
          ({ s with ran := t.id :: s.ran }).settle a.loss a.successor)
      else (.error .database, s)

/-- Raise unless the condition holds. -/
def ensure (c : Bool) (e : TrainingError) : SessionM Unit :=
  if c then pure () else Fallible.fail e

/-! ## Generated events -/

def legacyLiveContextPaymentPrefix : String := "pay_live_ctx_"

/-- The token of a full match of `pay_live_ctx_([0-9a-f]{12})`. -/
def legacyToken (paymentId : String) : Option String :=
  let pre := legacyLiveContextPaymentPrefix.toList
  let token := paymentId.toList.drop pre.length
  if pre.isPrefixOf paymentId.toList ∧ token.length = 12 ∧
      token.all (fun c => ('0' ≤ c && c ≤ '9') || ('a' ≤ c && c ≤ 'f')) then
    some (String.ofList token)
  else none

/-- One token is shared across the payment, order and event ids. -/
def isLegacyLiveContextEvent (e : PaymentEvent) : Bool :=
  match legacyToken e.paymentId with
  | none => false
  | some token => e.orderId == some ("order_live_ctx_" ++ token) &&
      (e.sourceEventId == "evt_live_auth_" ++ token || e.sourceEventId == "evt_live_term_" ++ token)

/-- Four weeks of baselines and root cause history, and a day of failure rates. -/
def contaminationLookback : Time :=
  Time.weeks historicalWeeksBack + Time.minutes (24 * 60)

def labelHorizon : Time := Time.minutes 30

/-- The times of the events with their history and their labels; none without events. -/
def contaminationWindow : List PaymentEvent → Option (Time × Time)
  | [] => none
  | e :: events =>
      let times := events.map (·.ingestedAt)
      some (times.foldl min e.ingestedAt - contaminationLookback,
        times.foldl max e.ingestedAt + labelHorizon)

/-- The event happened, or was ingested, in the window. -/
def inWindow (window : Time × Time) (e : PaymentEvent) : Bool :=
  (window.1 ≤ e.timestamp && e.timestamp ≤ window.2) ||
    (window.1 ≤ e.ingestedAt && e.ingestedAt ≤ window.2)

/-- Events of sources other than Razorpay and PayPal in the window. -/
def nonProviderCount (window : Time × Time) (r : Reads) : ℕ :=
  (r.rows 0 (·.events) fun e => inWindow window e &&
    !(razorpaySourceSystem :: nonRazorpayPipelineSources).contains e.sourceSystem).length

/-- Razorpay events of the live context generator in the window. -/
def legacyCount (window : Time × Time) (r : Reads) : ℕ :=
  ((r.rows 0 (·.events) fun e => inWindow window e && e.sourceSystem == razorpaySourceSystem &&
    legacyLiveContextPaymentPrefix.toList.isPrefixOf e.paymentId.toList).filter
      isLegacyLiveContextEvent).length

/-- The authorized Razorpay events, without generated ones, in the order of ingestion. -/
def authorizedEvents (r : Reads) : List PaymentEvent :=
  ((r.rows 0 (·.events) fun e => e.eventType == pipelineTriggerEventType &&
    e.inRazorpayPipeline && e.sourceSystem == razorpaySourceSystem).insertionSort fun e f =>
      toLex (e.ingestedAt, e.eventId) ≤ toLex (f.ingestedAt, f.eventId)).filter fun e =>
        !isLegacyLiveContextEvent e

/-! ## Extraction -/

def Severity.text : Severity → String
  | .moderate => "MODERATE"
  | .high => "HIGH"
  | .critical => "CRITICAL"

def RCAClassification.text : RCAClassification → String
  | .segmentSpecific => "SEGMENT_SPECIFIC"
  | .systemic => "SYSTEMIC"
  | .unknown => "UNKNOWN"

def EvidenceStrength.text : EvidenceStrength → String
  | .strong => "STRONG"
  | .moderate => "MODERATE"
  | .weak => "WEAK"

open FeatureValue in
/-- `asdict` of a feature snapshot. -/
def asdict (s : FeatureSnapshot) : Sample :=
  [("payment_method", ofOption str s.paymentMethod),
    ("bank", ofOption str s.bank),
    ("wallet", ofOption str s.wallet),
    ("currency", str s.currency),
    ("amount_minor_units", int s.amountMinorUnits),
    ("hour_of_day", int s.hourOfDay),
    ("day_of_week", int s.dayOfWeek),
    ("global_30m_failure_rate", ofOption float s.global30mFailureRate),
    ("global_24h_failure_rate", ofOption float s.global24hFailureRate),
    ("payment_method_30m_failure_rate", ofOption float s.paymentMethod30mFailureRate),
    ("payment_method_24h_failure_rate", ofOption float s.paymentMethod24hFailureRate),
    ("bank_30m_failure_rate", ofOption float s.bank30mFailureRate),
    ("bank_24h_failure_rate", ofOption float s.bank24hFailureRate),
    ("wallet_30m_failure_rate", ofOption float s.wallet30mFailureRate),
    ("wallet_24h_failure_rate", ofOption float s.wallet24hFailureRate),
    ("currency_30m_failure_rate", ofOption float s.currency30mFailureRate),
    ("currency_24h_failure_rate", ofOption float s.currency24hFailureRate),
    ("insufficient_global_volume", bool s.insufficientGlobalVolume),
    ("is_in_active_degradation", bool s.isInActiveDegradation),
    ("degradation_severity", ofOption (fun v => str (Severity.text v)) s.degradationSeverity),
    ("rca_classification",
      ofOption (fun v => str (RCAClassification.text v)) s.rcaClassification),
    ("rca_candidate_dimension", ofOption str s.rcaCandidateDimension),
    ("rca_candidate_value", ofOption str s.rcaCandidateValue),
    ("rca_evidence_strength",
      ofOption (fun v => str (EvidenceStrength.text v)) s.rcaEvidenceStrength),
    ("rca_excess_failure_contribution", ofOption float s.rcaExcessFailureContribution),
    ("rca_candidate_rank", ofOption (fun n : ℕ => int n) s.rcaCandidateRank),
    ("rca_candidate_matches_payment_segment",
      ofOption bool s.rcaCandidateMatchesPaymentSegment)]

section Extraction
variable (world : ℕ → Await) (transaction : ℕ)

/-- A call of the next await. -/
def execute {α : Type} (f : Reads → α) : SessionM α := fun s =>
  await (world s.awaited) (fun _ => f) s

/-- Procure the connection, which begins the transaction. -/
def connection : SessionM Unit := fun s =>
  let a := world s.awaited
  let s := { s.begin a.isolationLevel (a.reads.db 0) with awaited := s.awaited + 1 }
  (if a.raises then .error .database else .ok (), s.settle a.loss none)

/-- `SHOW transaction_isolation`; nobody else begins a transaction meanwhile. -/
def showTransactionIsolation : SessionM IsolationLevel := fun s =>
  await { world s.awaited with successor := none } (fun t _ => t.isolationLevel) s

/-- The session's transaction, when it is active. -/
def activeTransaction (s : Session) : Except TrainingError ℕ :=
  match s.transaction with
  | none => .error (.extraction .evaluationIsolation)
  | some t => if t.isActive then .ok t.id else .error (.extraction .evaluationIsolation)

/-- Begin the transaction whose snapshot everything is read from. -/
def beginProviderSnapshot : SessionM ℕ := do
  let s ← Fallible.state
  ensure s.transaction.isNone (.extraction .evaluationIsolation)
  connection world
  let level ← showTransactionIsolation world
  ensure level.isSnapshot (.extraction .evaluationIsolation)
  let s ← Fallible.state
  Fallible.ofExcept (activeTransaction s)

def requireProviderSnapshot : SessionM Unit := do
  let s ← Fallible.state
  Fallible.ofExcept ((s.validator transaction).requireProviderSnapshot.mapError .extraction)

def getAuthorizedEvents : SessionM (List PaymentEvent) := do
  requireProviderSnapshot transaction
  execute world authorizedEvents

def assertEvaluationWindowUncontaminated (window : Time × Time) : SessionM Unit := do
  requireProviderSnapshot transaction
  let nonProvider ← execute world (nonProviderCount window)
  let legacy ← execute world (legacyCount window)
  ensure (nonProvider == 0 && legacy == 0) .contamination

def getTerminalLabel (paymentId : String) (t : Time) : SessionM ℤ := do
  requireProviderSnapshot transaction
  let s ← Fallible.state
  let label ← execute world fun r =>
    RevenueRecovery.getTerminalLabel (s.validator transaction) r paymentId t
  Fallible.ofExcept (label.mapError .extraction)

/-- The features of a labelled event. -/
def reconstructSample (e : PaymentEvent) (label : ℤ) : SessionM (Option (Sample × ℤ)) :=
  if label = -1 then pure none
  else do
    let snapshot ← execute world fun r => reconstructFeatures r e.paymentId e.ingestedAt
    return snapshot.map fun features => (asdict features, label)

/-- Add the sample of an event, unless it was skipped. -/
def appendSample (e : PaymentEvent) (row : Option (Sample × ℤ)) (rest : Dataset) : Dataset :=
  row.elim rest fun row => rest.push row.1 (.int row.2) (.utc e.ingestedAt)

/-- Skip the unresolved events and those without features. -/
def labelAndReconstruct : List PaymentEvent → SessionM Dataset
  | [] => return {}
  | e :: events => do
      let label ← getTerminalLabel world transaction e.paymentId e.ingestedAt
      let row ← reconstructSample world e label
      let rest ← labelAndReconstruct events
      return appendSample e row rest

/-- The guard runs only when there are events. -/
def checkWindow : Option (Time × Time) → SessionM Unit
  | none => pure ()
  | some window => assertEvaluationWindowUncontaminated world transaction window

/-- The part of an extraction that runs while `transaction` is the snapshot transaction. -/
def extractInSnapshot : SessionM (Option (Time × Time) × Dataset) := do
  let events ← getAuthorizedEvents world transaction
  checkWindow world transaction (contaminationWindow events)
  let dataset ← labelAndReconstruct world transaction events
  let s ← Fallible.state
  ensure (s.snapshotIsCurrent transaction) (.extraction .evaluationIsolation)
  return (contaminationWindow events, dataset)

end Extraction

/-! ## The validator -/

structure CheckedExtraction (F : Type) where
  window : Time × Time
  datasetFingerprint : F

/-- A validator of the provider population. Its snapshot transaction is set only while a
dataset is extracted, and is an argument of what runs then. -/
structure ProviderValidator (F : Type) where
  session : Session
  checkedExtraction : Option (CheckedExtraction F) := none

section Validator
variable {F : Type} (sha256 : List CanonicalRow → F) (world : ℕ → Await)

/-- Remember the fingerprint of a dataset whose window was checked. -/
def ProviderValidator.recordChecked (v : ProviderValidator F) (dataset : Dataset) :
    Option (Time × Time) → Except TrainingError Dataset × ProviderValidator F
  | none => (.ok dataset, v)
  | some window =>
      match computeDatasetFingerprint sha256 dataset with
      | .error e => (.error e, v)
      | .ok fingerprint => (.ok dataset, { v with checkedExtraction := some ⟨window, fingerprint⟩ })

def extractDataset (v : ProviderValidator F) :
    Except TrainingError Dataset × ProviderValidator F :=
  match beginProviderSnapshot world v.session with
  | (.error e, session) => (.error e, { session := session })
  | (.ok transaction, session) =>
      match extractInSnapshot world transaction session with
      | (.error e, session) => (.error e, { session := session })
      | (.ok (window, dataset), session) =>
          ProviderValidator.recordChecked sha256 { session := session } dataset window

variable [DecidableEq F]

def requireCheckedDataset (v : ProviderValidator F) (d : Dataset) :
    Except TrainingError (CheckedExtraction F × F) :=
  match v.checkedExtraction with
  | none => .error .uncheckedDataset
  | some checked => do
      if d.times = [] then
        throw .noSamples
      let fingerprint ← computeDatasetFingerprint sha256 d
      if fingerprint ≠ checked.datasetFingerprint then
        throw .datasetMismatch
      return (checked, fingerprint)

/-! ## Training -/

/-- A trained model with the metadata that ties it to its dataset. -/
structure ProviderModel (Estimator F : Type) where
  estimator : Estimator
  trainingPopulation : TrainingPopulation := .providerEvaluation
  sampleWindow : Option Datetime × Option Datetime
  sampleCount : ℕ
  contaminationWindow : Time × Time
  datasetFingerprint : F

/-- No time of the first list is after one of the second. -/
def temporallyOrdered (older newer : List Datetime) : Bool :=
  older.all fun s => newer.all fun t => s.instant.getD 0 ≤ t.instant.getD 0

/-- The first three fifths train, the next fifth validates, the last fifth tests. -/
def chronologicalSplit (d : Dataset) : List Datetime × List Datetime × List Datetime :=
  let n := d.samples.length
  let trainEnd := 3 * n / 5
  let valEnd := 4 * n / 5
  (d.times.take trainEnd, (d.times.take valEnd).drop trainEnd, d.times.drop valEnd)

def assertTemporalSplit (d : Dataset) : Except TrainingError Unit :=
  let (train, validation, test) := chronologicalSplit d
  if temporallyOrdered train validation && temporallyOrdered validation test then .ok ()
  else .error .temporalLeakage

/-- Train a provider model; `fit` is the preprocessing, fitting and evaluation. -/
def runPipeline {Estimator : Type} (fit : Dataset → Except TrainingError Estimator)
    (v : ProviderValidator F) (d : Dataset) :
    Except TrainingError (ProviderModel Estimator F) := do
  let (checked, fingerprint) ← requireCheckedDataset sha256 v d
  assertTemporalSplit d
  let estimator ← fit d
  return { estimator := estimator
           sampleWindow := (Table.earliestBy (fun t => t.instant.getD 0) d.times,
             Table.latestBy (fun t => t.instant.getD 0) d.times)
           sampleCount := d.samples.length
           contaminationWindow := checked.window
           datasetFingerprint := fingerprint }

end Validator

/-! ## Calls in any order -/

/-- A call of the validator, or a use of its session by others between calls. -/
inductive Call
  | extractDataset
  | runPipeline (d : Dataset)
  | useSession (loss : Option Loss) (successor : Option (IsolationLevel × Database))
  | begin (isolationLevel : IsolationLevel) (snapshot : Database)

/-- A training leaves the validator as it is. -/
def Call.perform {F : Type} (sha256 : List CanonicalRow → F) (world : ℕ → Await)
    (v : ProviderValidator F) : Call → ProviderValidator F
  | .extractDataset => (Training.extractDataset sha256 world v).2
  | .runPipeline _ => v
  | .useSession loss successor => { v with session := v.session.settle loss successor }
  | .begin isolationLevel snapshot =>
      { v with session := v.session.begin isolationLevel snapshot }

/-- The validator after a sequence of calls. -/
def afterCalls {F : Type} (sha256 : List CanonicalRow → F) (world : ℕ → Await)
    (v : ProviderValidator F) (calls : List Call) : ProviderValidator F :=
  calls.foldl (Call.perform sha256 world) v

end RevenueRecovery.Training
