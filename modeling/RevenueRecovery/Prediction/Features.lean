import Mathlib.Algebra.Order.Field.Rat
import Mathlib.Data.Prod.Lex
import RevenueRecovery.Analytics

/-!
# Stage 5: features of an attempt as of a time

The feature vector combines the authorization known at `t`, the failure rates of the
terminal events known before `t`, the most severe episode that was active according to
the Stage 3 history up to `t`, and the latest root cause analysis generated before `t`.

## Main definitions
* `getPaymentEventById` : the latest trigger event known at `t`.
* `getMostSevereActiveEpisode`, `getRcaContext` : the degradation context.
* `reconstructFeatures` : the feature vector.
-/
namespace RevenueRecovery

/-! ## Queries -/

/-- The trigger event of the attempt that was ingested last, up to `t`. -/
def getPaymentEventById (r : Reads) (paymentAttemptId : String) (t : Time) :
    Option PaymentEvent :=
  Table.latestBy (·.ingestedAt)
    (r.rows 0 (·.events) fun e => isTriggerOf paymentAttemptId e && e.ingestedAt ≤ t)

/-- The terminal events a failure rate counts: known before `t`, in the window that ends
at `t`, of one provider scope and one value of a column. -/
def countedInRate (column : PaymentEvent → Option String) (value : String) (t : Time)
    (windowMinutes : ℤ) (paypal : Bool) (e : PaymentEvent) : Bool :=
  column e == some value && e.ingestedAt < t && t - Time.minutes windowMinutes ≤ e.timestamp &&
    e.timestamp < t && e.isTerminal && (if paypal then e.isPaypal else e.inRazorpayPipeline)

/-- The transaction and failure counts behind a failure rate. -/
def getHistoricalFailureRate (r : Reads) (column : PaymentEvent → Option String)
    (value : String) (t : Time) (windowMinutes : ℤ) (paypal : Bool) : ℕ × ℕ :=
  let rows := (r.db 0).events.filter (countedInRate column value t windowMinutes paypal)
  (rows.length, rows.countP fun e => e.eventType = failedEventType)

/-- The history row is of the segment; dimensions are compared in upper case, which is how
`dimension` is given. -/
def EpisodeStateHistory.ofSegment (dimension value : String) (h : EpisodeStateHistory) : Bool :=
  h.segmentDimension.toUpper == dimension && h.segmentValue == value

/-- The active episode of a segment in the last reconciliation evaluated up to `t`. -/
def getActiveEpisodeContext (r : Reads) (dimension value : String) (t : Time) :
    Option EpisodeStateHistory :=
  match Table.latestBy (·.evaluationTimestamp) (r.rows 0 (·.analytics.history) fun h =>
      h.ofSegment dimension value && h.evaluationTimestamp ≤ t) with
  | none => none
  | some last => (r.rows 1 (·.analytics.history) fun h =>
      h.reconciliationRunId == last.reconciliationRunId && h.ofSegment dimension value &&
        h.status == .active).head?

/-- The context of an optional attribute, which an empty string leaves out. -/
def getAttributeContext (r : Reads) (dimension : String) (value : Option String) (t : Time) :
    Option EpisodeStateHistory :=
  match value with
  | some v => if v = "" then none else getActiveEpisodeContext r dimension v t
  | none => none

def severityRank : Severity → ℕ
  | .critical => 3
  | .high => 2
  | .moderate => 1

/-- Severity, then the older start, then the id's string form. -/
def episodePrecedence (r : Reads) (h : EpisodeStateHistory) : ℕ ×ₗ ℤ ×ₗ ℕ :=
  toLex (severityRank h.severity,
    toLex (-h.effectiveStartWindow, r.episodeOrder h.episodeId))

/-- The active episodes of the payment's segments; none for PayPal. -/
def activeEpisodes (r : Reads) (auth : PaymentEvent) (t : Time) : List EpisodeStateHistory :=
  if auth.isPaypal then []
  else
    (getActiveEpisodeContext r "GLOBAL" "ALL" t).toList ++
    (getAttributeContext (r.shift 2) "CURRENCY" (some auth.currency) t).toList ++
    (getAttributeContext (r.shift 4) "PAYMENT_METHOD" auth.paymentMethod t).toList ++
    (getAttributeContext (r.shift 6) "BANK" auth.bank t).toList ++
    (getAttributeContext (r.shift 8) "WALLET" auth.wallet t).toList

/-- The most severe active episode that applies to the payment. -/
def getMostSevereActiveEpisode (r : Reads) (auth : PaymentEvent) (t : Time) :
    Option EpisodeStateHistory :=
  Table.latestBy (episodePrecedence r) (activeEpisodes r auth t)

/-- The latest evaluation of the episode generated before `t`, and its first candidate. -/
def getRcaContext (r : Reads) (episodeId : EpisodeId) (t : Time) :
    Option (RootCauseAnalysisEvaluation × Option CandidateCause) :=
  (Table.latestBy (·.evaluationVersion) (r.rows 0 (·.analytics.evaluations) fun v =>
      v.episodeId == episodeId && v.generatedAt < t)).map fun last =>
    (last, (r.rows 1 (·.analytics.candidates) fun c =>
      c.evaluationId == last.evaluationId && c.rank == 1).head?)

/-! ## Service -/

/-- Initial volume thresholds of the failure rates. -/
def rateThreshold (dimension : String) : ℕ :=
  if dimension = "global" then 50
  else if dimension = "payment_method" then 20
  else if dimension = "bank" then 10
  else if dimension = "wallet" then 10
  else 20

/-- A failure rate, absent below the volume threshold of its dimension. -/
def calculateRate (r : Reads) (column : PaymentEvent → Option String) (value : String)
    (t : Time) (windowMinutes : ℤ) (dimension : String) (paypal : Bool) : Option ℚ :=
  let (total, failures) := getHistoricalFailureRate r column value t windowMinutes paypal
  if total < rateThreshold dimension then none else some ((rate failures total).getD 0)

/-- The rate of an optional attribute, which an empty string leaves out. -/
def attributeRate (r : Reads) (column : PaymentEvent → Option String) (auth : PaymentEvent)
    (t : Time) (windowMinutes : ℤ) (dimension : String) (paypal : Bool) : Option ℚ :=
  match column auth with
  | some v => if v = "" then none else calculateRate r column v t windowMinutes dimension paypal
  | none => none

/-- The payment has the candidate's value in the candidate's dimension. -/
def matchesSegment (e : PaymentEvent) (dimension value : String) : Bool :=
  (dimension == "BANK" && e.bank == some value) ||
    (dimension == "WALLET" && e.wallet == some value) ||
    (dimension == "PAYMENT_METHOD" && e.paymentMethod == some value) ||
    (dimension == "CURRENCY" && e.currency == value)

/-- The hour of an instant, in UTC. -/
def hourOf (t : Time) : ℕ := (t / Time.minutes 60 % 24).toNat

/-- The weekday of an instant, in UTC, Monday first. -/
def weekdayOf (t : Time) : ℕ := ((t / Time.minutes (24 * 60) + 3) % 7).toNat

/-- The degradation and root cause context a feature vector carries. -/
structure DegradationContext where
  episode : Option EpisodeStateHistory
  rca : Option (RootCauseAnalysisEvaluation × Option CandidateCause)
deriving DecidableEq, Repr

/-- The active episode that applies to the payment, with its root cause analysis. -/
def degradationContext (r : Reads) (auth : PaymentEvent) (t : Time) : DegradationContext :=
  let episode := getMostSevereActiveEpisode r auth t
  { episode := episode
    rca := episode.bind fun ep => getRcaContext (r.shift 10) ep.episodeId t }

/-- Whether the first candidate names the payment's own segment. -/
def candidateMatches (auth : PaymentEvent) :
    RootCauseAnalysisEvaluation × Option CandidateCause → Option Bool
  | (evaluation, some c) =>
      match evaluation.classification with
      | .segmentSpecific => some (matchesSegment auth c.candidateDimension c.candidateValue)
      | .systemic => some false
      | .unknown => none
  | (_, none) => none

/-- The feature vector of an attempt as of `t`; none without a trigger event. The
statements are the trigger event, ten rates, and the degradation context. -/
def reconstructFeatures (r : Reads) (paymentAttemptId : String) (t : Time) :
    Option FeatureSnapshot :=
  (getPaymentEventById r paymentAttemptId t).map fun auth =>
    let paypal := (paypalOrderId paymentAttemptId).isSome
    let globalRate := fun k minutes => calculateRate (r.shift k) (fun e => some e.sourceSystem)
      auth.sourceSystem t minutes "global" paypal
    let rateOf := fun k column minutes dimension =>
      attributeRate (r.shift k) column auth t minutes dimension paypal
    let context := degradationContext (r.shift 11) auth t
    let candidate := context.rca.bind Prod.snd
    { paymentMethod := auth.paymentMethod
      bank := auth.bank
      wallet := auth.wallet
      currency := auth.currency
      amountMinorUnits := auth.amountMinorUnits
      hourOfDay := hourOf auth.timestamp
      dayOfWeek := weekdayOf auth.timestamp
      global30mFailureRate := globalRate 1 30
      global24hFailureRate := globalRate 2 (24 * 60)
      paymentMethod30mFailureRate := rateOf 3 (·.paymentMethod) 30 "payment_method"
      paymentMethod24hFailureRate := rateOf 4 (·.paymentMethod) (24 * 60) "payment_method"
      bank30mFailureRate := rateOf 5 (·.bank) 30 "bank"
      bank24hFailureRate := rateOf 6 (·.bank) (24 * 60) "bank"
      wallet30mFailureRate := rateOf 7 (·.wallet) 30 "wallet"
      wallet24hFailureRate := rateOf 8 (·.wallet) (24 * 60) "wallet"
      currency30mFailureRate := rateOf 9 (fun e => some e.currency) 30 "currency"
      currency24hFailureRate := rateOf 10 (fun e => some e.currency) (24 * 60) "currency"
      insufficientGlobalVolume := (globalRate 1 30).isNone && (globalRate 2 (24 * 60)).isNone
      isInActiveDegradation := context.episode.isSome
      degradationSeverity := context.episode.map (·.severity)
      rcaClassification := context.rca.map (·.1.classification)
      rcaCandidateDimension := candidate.map (·.candidateDimension)
      rcaCandidateValue := candidate.map (·.candidateValue)
      rcaEvidenceStrength := candidate.map (·.evidenceStrength)
      rcaExcessFailureContribution := candidate.map (·.excessFailureContribution)
      rcaCandidateRank := candidate.map (·.rank)
      rcaCandidateMatchesPaymentSegment := context.rca.bind (candidateMatches auth) }

end RevenueRecovery
