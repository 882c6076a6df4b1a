import RevenueRecovery.Verification.Client
import RevenueRecovery.Inspection.Conservation
import RevenueRecovery.LivePipeline.Barrier
import RevenueRecovery.LivePipeline.Identity

/-!
# The timeline of a payment

The timeline follows a payment from its events through its latest prediction and decision to
the command of that decision, with the latest execution attempt, observation and attribution
of the command. The payments list and the recovery ledger reach the same rows by other joins.
In the stores of the live pipeline all three agree.

## Main definitions
* `PaymentTimeline`, `getPaymentTimeline` : the timeline endpoint.
* `Inspectable` : what the pipeline keeps for the inspection queries.
-/
namespace RevenueRecovery

open Relational Transaction

/-! ## Timeline -/

inductive TimelineError
  | notFound (detail : String)
  | multipleResultsFound
deriving DecidableEq, Repr

def scalarOneOrNone {α : Type} : List α → Except TimelineError (Option α)
  | [] => .ok none
  | [a] => .ok (some a)
  | _ :: _ :: _ => .error .multipleResultsFound

/-- The columns of the first event, and the status of the last one. -/
structure PaymentInfo where
  amountMinorUnits : ℤ
  currency : String
  paymentMethod : Option String
  bank : Option String
  wallet : Option String
  terminalStatus : String
deriving DecidableEq, Repr

/-- The rows that the timeline shows columns of. -/
structure PaymentTimeline where
  paymentId : String
  paymentInfo : PaymentInfo
  events : List PaymentEvent
  prediction : Option FailurePrediction
  decision : Option InterventionDecision
  command : Option InterventionCommand := none
  execution : Option ExecutionAttempt := none
  observation : Option PaymentOutcomeObservation := none
  attribution : Option CounterfactualAttribution := none
deriving DecidableEq, Repr

/-- The events of a payment by timestamp. -/
def paymentEvents (order : ℕ → ℕ) (db : Database) (cleanPid : String) : List PaymentEvent :=
  (Table.scan order (db.events.filter fun e =>
    e.paymentId = cleanPid ∧ e.inRazorpayPipeline)).insertionSort fun a b =>
      a.timestamp ≤ b.timestamp

/-- The command of the decision, and the rows of the command. -/
def PaymentTimeline.followDecision (order : ℕ → ℕ → ℕ) (db : Database) (t : PaymentTimeline) :
    Except TimelineError PaymentTimeline :=
  match t.decision with
  | none => .ok t
  | some decision =>
      (scalarOneOrNone (Table.scan (order 3)
        (db.commands.filter fun c => c.decisionId = decision.decisionId))).map fun
      | none => t
      | some c => { t with
          command := some c
          execution := Table.latestBy (·.attemptNumber) (Table.scan (order 4)
            (db.executionAttempts.filter fun x => x.commandId = c.commandId))
          observation := Table.latestBy (·.observationVersion) (Table.scan (order 5)
            (db.observations.filter fun o => o.commandId = c.commandId))
          attribution := Table.latestBy (·.attributionVersion) (Table.scan (order 6)
            (db.attributions.filter fun a => a.commandId = c.commandId)) }

/-- The trace of a payment; `order` is the order in which each statement returns the rows it
does not sort. -/
def getPaymentTimeline (order : ℕ → ℕ → ℕ) (db : Database) (paymentId : String) :
    Except TimelineError PaymentTimeline :=
  let cleanPid := pyStrip paymentId
  match paymentEvents (order 0) db cleanPid with
  | [] => .error (.notFound ("Payment " ++ paymentId ++ " not found"))
  | firstEvent :: rest =>
      PaymentTimeline.followDecision order db
        { paymentId := firstEvent.paymentId
          paymentInfo :=
            { amountMinorUnits := firstEvent.amountMinorUnits
              currency := firstEvent.currency
              paymentMethod := firstEvent.paymentMethod
              bank := firstEvent.bank
              wallet := firstEvent.wallet
              terminalStatus := (rest.getLastD firstEvent).paymentStatus }
          events := firstEvent :: rest
          prediction := Table.latestBy (·.predictionVersion) (Table.scan (order 1)
            (db.predictions.filter fun p => p.paymentAttemptId = cleanPid))
          decision := Table.latestBy (·.decisionVersion) (Table.scan (order 2)
            (db.decisions.filter fun d => d.paymentAttemptId = cleanPid)) }

/-! ## Amounts -/

/-- The amount that the timeline and the payments list show of an attribution. -/
def shownAmount (attribution : Option CounterfactualAttribution) : ℤ :=
  (attribution.filter fun a => a.attributionStatus = .attributed).elim 0
    (·.attributedProtectedGmvMinorUnits)

/-- The amount that a ledger row shows: `attributed_protected_gmv_minor_units or 0`. -/
def LedgerRow.amount (r : LedgerRow) : ℤ :=
  r.attribution.elim 0 (·.attributedProtectedGmvMinorUnits)

/-! ## Stores of the live pipeline -/

/-- An attribution that does not attribute protects nothing. -/
def Unprotected (_ : Database) : Write → Prop
  | .appendAttribution a =>
      a.attributionStatus ≠ .attributed → a.attributedProtectedGmvMinorUnits = 0
  | _ => True

def unprotected : Justification where
  holds := Unprotected
  lasting _ h := h

theorem calculateAttribution_unprotected {amount : ℤ} {p0 : Option ℚ}
    {treatment : TreatmentStatus} {outcome : PaymentOutcome} {provenance : ModelProvenance}
    {predictionStatus : PredictionStatus} {diagnosis : Option EvidenceStrength}
    {timing : Option ℚ}
    (h : (calculateAttribution amount p0 treatment outcome provenance predictionStatus diagnosis
      timing).attributionStatus ≠ .attributed) :
    (calculateAttribution amount p0 treatment outcome provenance predictionStatus diagnosis
      timing).attributedProtectedGmvMinorUnits = 0 := by
  rcases calculateAttribution_cases amount p0 treatment outcome provenance predictionStatus
    diagnosis timing with ⟨status, confidence, details, heq, -⟩ | ⟨-, -, -, p, -, -, heq⟩
  · rw [heq]
    rfl
  · rw [heq] at h
    exact absurd rfl h

/-- A run of the pipeline attributes what its calls do. -/
theorem liveProgram_unprotected (policy : InterventionPolicy) :
    unprotected.Respected (liveProgram policy) fun _ _ _ => True where
  apply := rfl
  arrive {db e ws ps} harr w hw := by
    obtain ⟨rfl, -⟩ := liveProgram_arrive harr
    obtain rfl := List.mem_singleton.mp hw
    trivial
  write {db s input ws next} _ _ h w hw := by
    generalize ho : Outcome.write ws next = o at h
    cases liveStepped h with
    | @called p f o' hproc hp hcall =>
        cases o' with
        | write vs next' =>
            obtain ⟨rfl, -⟩ := Outcome.write.inj ho
            have horigin := hcall.origin hw
            cases w with
            | appendAttribution a =>
                obtain ⟨id, asOf, rfl, hattr⟩ := horigin
                obtain ⟨u, -, -, rfl⟩ := attributePaymentIntervention_spec hattr
                exact calculateAttribution_unprotected
            | _ => exact trivial
        | _ => cases ho
    | failed => cases ho
    | analyticsStored => cases ho
    | finish => cases ho
    | register =>
        obtain ⟨rfl, -⟩ := Outcome.write.inj ho
        obtain rfl := List.mem_singleton.mp hw
        trivial
    | analytics =>
        obtain ⟨rfl, -⟩ := Outcome.write.inj ho
        obtain rfl := List.mem_singleton.mp hw
        trivial
    | _ =>
        obtain ⟨rfl, -⟩ := Outcome.write.inj ho
        cases hw

/-- What the pipeline keeps for the inspection queries. -/
structure Inspectable (db : Database) : Prop extends Reportable db where
  identities : Identities db
  commandDecision : ∀ c ∈ db.commands, ∃ d ∈ db.decisions, d.decisionId = c.decisionId
  unprotected : ∀ a ∈ db.attributions, Unprotected db (.appendAttribution a)

theorem Identities.linked {db : Database} (h : Identities db) : Justified linked db where
  events _ _ := trivial
  predictions _ _ := trivial
  decisions d hd := (h.decisions d hd).1
  commands c _ := ⟨c, .refl c, trivial⟩
  executionAttempts _ _ := trivial
  observations _ _ := trivial
  attributions a ha := by
    obtain ⟨c, hc, hid, -, -, hdecision⟩ := h.attributions a ha
    exact ⟨c, hc, hid, hdecision⟩

theorem liveRun_inspectable {policy : InterventionPolicy} {as : List LiveAction} {w : LiveWorld}
    (h : liveRun policy as = some w) : Inspectable w.db := by
  have hidentities : Identities w.db :=
    ((liveProgram_identified policy).invariant.exec_true (.empty .empty) h).store
  have htimed : Justified timed w.db :=
    ((liveProgram_timed policy).invariant.exec_true (.empty (.empty timed)) h).store
  exact {
    unique := (liveRun_met h).store
    linked := hidentities.linked
    identities := hidentities
    commandDecision := fun c hc => by
      obtain ⟨-, d, hd, hid, -⟩ := timed_command htimed hc
      exact ⟨d, hd, hid⟩
    unprotected := by
      have hstore := (liveProgram_unprotected policy).invariant.exec_true (.empty (.empty _)) h
      exact hstore.store.attributions }

/-! ## Selected rows -/

theorem scalarOneOrNone_scan {α : Type} (order : ℕ → ℕ) {rows : List α} {r : α → Bool}
    (h : (rows.filter r).length ≤ 1) :
    ∃ o, scalarOneOrNone (Table.scan order (rows.filter r)) = .ok o ∧
      Selects (fun a => r a = true) rows o := by
  have hlength : (Table.scan order (rows.filter r)).length ≤ 1 := by
    rw [(Table.scan_perm order _).length_eq]
    exact h
  have hmem : ∀ a, a ∈ Table.scan order (rows.filter r) ↔ a ∈ rows ∧ r a = true :=
    fun a => Table.mem_scan.trans List.mem_filter
  generalize Table.scan order (rows.filter r) = scanned at hlength hmem
  cases scanned with
  | nil => exact ⟨none, rfl, fun a ha hr => absurd ((hmem a).mpr ⟨ha, hr⟩) List.not_mem_nil⟩
  | cons a rest =>
      obtain rfl : rest = [] := List.length_eq_zero_iff.mp (by simpa using hlength)
      exact ⟨some a, rfl, (hmem a).mp List.mem_cons_self⟩

/-- The rows of one command, which may be missing. -/
theorem latest_of_command_iff {α ι : Type} {id : α → ι} {group : α → CommandId} {version : α → ℕ}
    {rows : List α} (hid : ∀ a ∈ rows, ∀ b ∈ rows, id a = id b → a = b)
    (command : Option InterventionCommand) {a : α} (ha : a ∈ rows) :
    (hasCommandId command (group a) = true ∧ id a ∈ latestVersionIds id group version rows) ↔
      hasCommandId command (group a) = true ∧ ∀ b ∈ rows,
        hasCommandId command (group b) = true → version b ≤ version a := by
  refine and_congr_right fun hcommand => ?_
  rw [mem_latestVersionIds fun b hb => hid b hb a ha, mem_latestVersions]
  constructor
  · exact fun h b hb hb' => h.2 b hb (hasCommandId_eq hb' hcommand)
  · exact fun h => ⟨ha, fun b hb hgroup => h b hb (by rwa [hgroup])⟩

/-- The rows of a timeline. -/
structure Traces (db : Database) (cleanPid : String) (t : PaymentTimeline) : Prop where
  paymentId : t.paymentId = cleanPid
  decision : Selects (fun d => d.paymentAttemptId = cleanPid ∧ ∀ d' ∈ db.decisions,
    d'.paymentAttemptId = cleanPid → d'.decisionVersion ≤ d.decisionVersion) db.decisions t.decision
  command : Selects (fun c => t.decision.any (fun d => c.decisionId = d.decisionId) = true)
    db.commands t.command
  execution : Selects (fun x => hasCommandId t.command x.commandId = true ∧
    ∀ x' ∈ db.executionAttempts, hasCommandId t.command x'.commandId = true →
      x'.attemptNumber ≤ x.attemptNumber) db.executionAttempts t.execution
  observation : Selects (fun o => hasCommandId t.command o.commandId = true ∧
    ∀ o' ∈ db.observations, hasCommandId t.command o'.commandId = true →
      o'.observationVersion ≤ o.observationVersion) db.observations t.observation
  attribution : Selects (fun a => hasCommandId t.command a.commandId = true ∧
    ∀ a' ∈ db.attributions, hasCommandId t.command a'.commandId = true →
      a'.attributionVersion ≤ a.attributionVersion) db.attributions t.attribution

theorem hasCommandId_some {c : InterventionCommand} {id : CommandId} :
    hasCommandId (some c) id = decide (c.commandId = id) := rfl

theorem Inspectable.commands_of_decision {db : Database} (h : Inspectable db) (id : DecisionId) :
    (db.commands.filter fun c => c.decisionId = id).length ≤ 1 :=
  length_filter_le_one h.nodup_commands fun _ ha _ hb hid hid' =>
    h.unique.command_eq ha hb
      (.inr ((of_decide_eq_true hid).trans (of_decide_eq_true hid').symm))

/-- From its latest decision on, a timeline traces the payment. -/
theorem Inspectable.traces_followDecision {db : Database} (h : Inspectable db)
    {order : ℕ → ℕ → ℕ} {cleanPid : String} {paymentId : String} {info : PaymentInfo}
    {events : List PaymentEvent} {prediction : Option FailurePrediction}
    {decision : Option InterventionDecision} (hpaymentId : paymentId = cleanPid)
    (hdecision : Selects (fun d => d.paymentAttemptId = cleanPid ∧ ∀ d' ∈ db.decisions,
      d'.paymentAttemptId = cleanPid → d'.decisionVersion ≤ d.decisionVersion)
      db.decisions decision) :
    ∃ t, PaymentTimeline.followDecision order db
      { paymentId := paymentId, paymentInfo := info, events := events, prediction := prediction,
        decision := decision } = .ok t ∧ Traces db cleanPid t := by
  have hnone : ∀ {α : Type} {group : α → CommandId} {version : α → ℕ} {rows : List α},
      Selects (fun a => hasCommandId none (group a) = true ∧ ∀ b ∈ rows,
        hasCommandId none (group b) = true → version b ≤ version a) rows none :=
    fun _ _ hr => Bool.false_ne_true hr.1
  cases decision with
  | none =>
      refine ⟨_, rfl, ?_⟩
      exact ⟨hpaymentId, hdecision, fun _ _ => Bool.false_ne_true, hnone, hnone, hnone⟩
  | some d =>
      obtain ⟨command, hok, hcommand⟩ := scalarOneOrNone_scan (order 3)
        (h.commands_of_decision d.decisionId)
      simp only [PaymentTimeline.followDecision, hok, Except.map]
      cases command with
      | none =>
          refine ⟨_, rfl, ?_⟩
          exact ⟨hpaymentId, hdecision, hcommand, hnone, hnone, hnone⟩
      | some c =>
          refine ⟨_, rfl, ?_⟩
          refine ⟨hpaymentId, hdecision, hcommand, ?_, ?_, ?_⟩ <;>
            exact selects_latestBy.congr fun x _ => by simp [hasCommandId_some, eq_comm]

/-- The timeline of a payment with an event is found, and traces it. -/
theorem Inspectable.getPaymentTimeline_eq_ok {db : Database} (h : Inspectable db)
    (order : ℕ → ℕ → ℕ) {paymentId : String} {e : PaymentEvent} (he : e ∈ db.events)
    (hpid : e.paymentId = pyStrip paymentId) (hin : e.inRazorpayPipeline = true) :
    ∃ t, getPaymentTimeline order db paymentId = .ok t ∧ Traces db (pyStrip paymentId) t := by
  have hmem : ∀ x, x ∈ paymentEvents (order 0) db (pyStrip paymentId) ↔
      x ∈ db.events ∧ x.paymentId = pyStrip paymentId ∧ x.inRazorpayPipeline = true := by
    intro x
    rw [paymentEvents, List.mem_insertionSort, Table.mem_scan, List.mem_filter,
      decide_eq_true_eq]
  unfold getPaymentTimeline
  dsimp only
  cases hevents : paymentEvents (order 0) db (pyStrip paymentId) with
  | nil =>
      have he' := (hmem e).mpr ⟨he, hpid, hin⟩
      rw [hevents] at he'
      cases he'
  | cons firstEvent rest =>
      have hfirst : firstEvent.paymentId = pyStrip paymentId :=
        ((hmem firstEvent).mp (hevents ▸ List.mem_cons_self)).2.1
      exact h.traces_followDecision hfirst (selects_latestBy.congr fun d _ => by simp)

/-! ## One set of rows -/

section Views
variable {db : Database}

theorem Inspectable.latest_decision_iff (h : Inspectable db) {d : InterventionDecision}
    (hd : d ∈ db.decisions) : d.decisionId ∈ latestDecisionIds db ↔ ∀ d' ∈ db.decisions,
      d'.paymentAttemptId = d.paymentAttemptId → d'.decisionVersion ≤ d.decisionVersion :=
  (mem_latestVersionIds fun _ hb heq => h.unique.decision_eq hb hd heq).trans
    (mem_latestVersions.trans (and_iff_right hd))

/-- A payment's row of the list selects what its timeline does. -/
theorem Inspectable.paymentJoins_selects {r : PaymentJoin} (hr : r ∈ paymentJoins db) :
    r.event ∈ db.events ∧
      Selects (fun d => d.paymentAttemptId = r.event.paymentId ∧
        d.decisionId ∈ latestDecisionIds db) db.decisions r.decision ∧
      Selects (fun a => r.decision.any (fun d => a.decisionId = d.decisionId) = true ∧
        a.attributionId ∈ latestAttributionIds db) db.attributions r.attribution := by
  obtain ⟨⟨⟨⟨e, terminal⟩, decision⟩, attribution⟩, hrow, rfl⟩ := List.mem_map.mp hr
  obtain ⟨hdecisions, hattribution⟩ := selects_of_mem_leftJoin hrow
  obtain ⟨hterminals, hdecision⟩ := selects_of_mem_leftJoin hdecisions
  obtain ⟨he, -⟩ := selects_of_mem_leftJoin hterminals
  exact ⟨he, hdecision.congr fun _ _ => decide_eq_true_iff,
    hattribution.congr fun _ _ => decide_eq_true_iff⟩

/-- What a row of the ledger selects. -/
theorem Inspectable.ledgerJoins_selects {r : LedgerRow} (hr : r ∈ ledgerJoins db) :
    r.decision ∈ db.decisions ∧
      Selects (fun c => c.decisionId = r.decision.decisionId) db.commands r.command ∧
      Selects (fun o => hasCommandId r.command o.commandId = true ∧
        o.observationId ∈ latestObservationIds db) db.observations r.observation ∧
      Selects (fun a => a.decisionId = r.decision.decisionId ∧
        a.attributionId ∈ latestAttributionIds db) db.attributions r.attribution ∧
      Selects (fun x => hasCommandId r.command x.commandId = true ∧
        x.attemptId ∈ latestAttemptIds db) db.executionAttempts r.attempt ∧
      ∃ c, Selects (fun p => p.1 = r.decision.paymentAttemptId) (paymentCurrency db) c ∧
        r.currency = c.bind Prod.snd := by
  obtain ⟨⟨⟨⟨⟨⟨d, command⟩, observation⟩, attribution⟩, attempt⟩, currency⟩, hrow, rfl⟩ :=
    List.mem_map.mp hr
  obtain ⟨hattempts, hcurrency⟩ := selects_of_mem_leftJoin hrow
  obtain ⟨hattributions, hattempt⟩ := selects_of_mem_leftJoin hattempts
  obtain ⟨hobservations, hattribution⟩ := selects_of_mem_leftJoin hattributions
  obtain ⟨hcommands, hobservation⟩ := selects_of_mem_leftJoin hobservations
  obtain ⟨hd, hcommand⟩ := selects_of_mem_leftJoin hcommands
  exact ⟨hd, hcommand.congr fun _ _ => decide_eq_true_iff,
    hobservation.congr fun _ _ => decide_eq_true_iff,
    hattribution.congr fun _ _ => decide_eq_true_iff,
    hattempt.congr fun _ _ => decide_eq_true_iff,
    currency, hcurrency.congr fun _ _ => decide_eq_true_iff, rfl⟩

/-- An attribution of a decision is one of its command. -/
theorem Inspectable.attribution_command (h : Inspectable db) {d : InterventionDecision}
    {command : Option InterventionCommand}
    (hcommand : Selects (fun c => c.decisionId = d.decisionId) db.commands command)
    {a : CounterfactualAttribution} (ha : a ∈ db.attributions) :
    a.decisionId = d.decisionId ↔ hasCommandId command a.commandId = true := by
  obtain ⟨c, hc, hid, -, -, hdecision⟩ := h.identities.attributions a ha
  cases command with
  | none =>
      constructor
      · exact fun heq => absurd (hdecision.trans heq) (hcommand c hc)
      · exact fun hfalse => absurd hfalse Bool.false_ne_true
  | some c' =>
      rw [hasCommandId_some, decide_eq_true_iff]
      constructor
      · intro heq
        rw [h.unique.command_eq hcommand.1 hc (.inr (hcommand.2.trans (hdecision.trans heq).symm)),
          hid]
      · intro heq
        rw [← hdecision, h.unique.command_eq hc hcommand.1 (.inl (hid.trans heq.symm))]
        exact hcommand.2

theorem Inspectable.attribution_id_eq (h : Inspectable db) :
    ∀ a ∈ db.attributions, ∀ b ∈ db.attributions, a.attributionId = b.attributionId → a = b :=
  fun _ ha _ hb heq => h.attribution_eq ha hb (.inl heq)

/-- A timeline selects one attribution. -/
theorem Inspectable.traced_attribution_eq (h : Inspectable db)
    {command : Option InterventionCommand} {a b : CounterfactualAttribution}
    (ha : a ∈ db.attributions) (hb : b ∈ db.attributions)
    (hfirst : hasCommandId command a.commandId = true ∧ ∀ x ∈ db.attributions,
      hasCommandId command x.commandId = true → x.attributionVersion ≤ a.attributionVersion)
    (hsecond : hasCommandId command b.commandId = true ∧ ∀ x ∈ db.attributions,
      hasCommandId command x.commandId = true → x.attributionVersion ≤ b.attributionVersion) :
    a = b :=
  h.latest_attribution_eq ha hb
    ((latest_of_command_iff h.attribution_id_eq command ha).mpr hfirst).2
    ((latest_of_command_iff h.attribution_id_eq command hb).mpr hsecond).2
    (hasCommandId_eq hfirst.1 hsecond.1)

/-- The latest attribution of a decision is the latest one of its command. -/
theorem Inspectable.attribution_eq_traced (h : Inspectable db) {cleanPid : String}
    {t : PaymentTimeline} (ht : Traces db cleanPid t) {d : InterventionDecision}
    (hd : t.decision = some d) {attribution : Option CounterfactualAttribution}
    (hattribution : Selects (fun a => a.decisionId = d.decisionId ∧
      a.attributionId ∈ latestAttributionIds db) db.attributions attribution) :
    attribution = t.attribution := by
  have hcommand := ht.command
  rw [hd] at hcommand
  have hcommand' : Selects (fun c => c.decisionId = d.decisionId) db.commands t.command :=
    hcommand.congr fun c _ => decide_eq_true_iff
  refine Selects.unique (hattribution.congr fun a ha => ?_) ht.attribution
    fun a ha b hb hfirst hsecond => h.traced_attribution_eq ha hb hfirst hsecond
  rw [← latest_of_command_iff h.attribution_id_eq _ ha]
  exact and_congr_left fun _ => h.attribution_command hcommand' ha

/-- The decision and the attribution of a payment's row are those of its timeline. -/
theorem Inspectable.row_eq_timeline (h : Inspectable db) {r : PaymentJoin}
    (hr : r ∈ paymentJoins db) {t : PaymentTimeline} (ht : Traces db r.event.paymentId t) :
    r.decision = t.decision ∧ r.attribution = t.attribution := by
  obtain ⟨-, hdecision, hattribution⟩ := Inspectable.paymentJoins_selects hr
  have hsame : r.decision = t.decision := by
    refine (hdecision.congr fun d hd => and_congr_right fun hkey => ?_).unique ht.decision
      fun a ha b hb hfirst hsecond => ?_
    · rw [h.latest_decision_iff hd, hkey]
    · refine h.latest_decision_eq ha hb ?_ ?_ (hfirst.1.trans hsecond.1.symm)
      · rw [h.latest_decision_iff ha, hfirst.1]
        exact hfirst.2
      · rw [h.latest_decision_iff hb, hsecond.1]
        exact hsecond.2
  refine ⟨hsame, ?_⟩
  rw [hsame] at hattribution
  cases hd : t.decision with
  | none =>
      have hcommand := ht.command
      rw [hd] at hattribution hcommand
      cases hc : t.command with
      | some c =>
          rw [hc] at hcommand
          exact absurd hcommand.2 Bool.false_ne_true
      | none =>
          have htraced := ht.attribution
          rw [hc] at htraced
          refine Selects.unique (hattribution.congr fun a _ => ?_) htraced fun a _ _ _ hp _ =>
            absurd hp.1 Bool.false_ne_true
          exact ⟨fun hp => absurd hp.1 Bool.false_ne_true, fun hp => absurd hp.1 Bool.false_ne_true⟩
  | some d =>
      rw [hd] at hattribution
      exact h.attribution_eq_traced ht hd
        (hattribution.congr fun a _ => and_congr_left fun _ => decide_eq_true_iff)

theorem Inspectable.observation_id_eq (h : Inspectable db) :
    ∀ a ∈ db.observations, ∀ b ∈ db.observations, a.observationId = b.observationId → a = b := by
  intro a ha b hb heq
  by_contra hne
  have hsymm : Std.Symm fun x y : PaymentOutcomeObservation => y.sameVersion x = false := by
    refine ⟨fun x y hxy => ?_⟩
    rw [← hxy]
    simp only [PaymentOutcomeObservation.sameVersion, Bool.beq_eq_decide_eq, eq_comm]
  have hfalse := h.unique.observations.forall ha hb hne
  simp [PaymentOutcomeObservation.sameVersion, heq] at hfalse

/-- A ledger row of the decision of a timeline has the rows of the timeline. -/
theorem Inspectable.ledger_eq_timeline (h : Inspectable db) {cleanPid : String}
    {t : PaymentTimeline} (ht : Traces db cleanPid t) {r : LedgerRow} (hr : r ∈ ledgerJoins db)
    (hdecision : t.decision = some r.decision) :
    r.command = t.command ∧ r.attempt = t.execution ∧ r.observation = t.observation ∧
      r.attribution = t.attribution := by
  obtain ⟨-, hcommand, hobservation, hattribution, hattempt, -⟩ :=
    Inspectable.ledgerJoins_selects hr
  have htraced := ht.command
  rw [hdecision] at htraced
  have hsame : r.command = t.command := by
    refine hcommand.unique (htraced.congr fun c _ => decide_eq_true_iff) ?_
    intro a ha b hb hid hid'
    exact h.unique.command_eq ha hb (.inr (hid.trans hid'.symm))
  have hattemptId : ∀ x ∈ db.executionAttempts, ∀ y ∈ db.executionAttempts,
      x.attemptId = y.attemptId → x = y := fun x hx y hy heq =>
    h.unique.executionAttempt_eq hx hy (Prod.mk.inj heq).1 (Prod.mk.inj heq).2
  rw [hsame] at hobservation hattempt
  refine ⟨hsame, ?_, ?_, h.attribution_eq_traced ht hdecision hattribution⟩
  · refine (hattempt.congr fun x hx => latest_of_command_iff hattemptId t.command hx).unique
      ht.execution fun a ha b hb hfirst hsecond => ?_
    exact h.latest_attempt_eq ha hb ((latest_of_command_iff hattemptId t.command ha).mpr hfirst).2
      ((latest_of_command_iff hattemptId t.command hb).mpr hsecond).2
      (hasCommandId_eq hfirst.1 hsecond.1)
  · refine (hobservation.congr fun x hx =>
      latest_of_command_iff h.observation_id_eq t.command hx).unique
      ht.observation fun a ha b hb hfirst hsecond => ?_
    exact h.latest_observation_eq ha hb
      ((latest_of_command_iff h.observation_id_eq t.command ha).mpr hfirst).2
      ((latest_of_command_iff h.observation_id_eq t.command hb).mpr hsecond).2
      (hasCommandId_eq hfirst.1 hsecond.1)

/-- What a ledger row shows as protected is what the timeline shows. -/
theorem Inspectable.amount_eq_shown (h : Inspectable db) {r : LedgerRow}
    (hr : r ∈ ledgerJoins db) : r.amount = shownAmount r.attribution := by
  obtain ⟨-, -, -, hattribution, -⟩ := Inspectable.ledgerJoins_selects hr
  unfold LedgerRow.amount shownAmount
  cases ha : r.attribution with
  | none => rfl
  | some a =>
      rw [ha] at hattribution
      by_cases hstatus : a.attributionStatus = .attributed
      · simp [Option.filter, hstatus]
      · simp [Option.filter, hstatus, h.unprotected a hattribution.1 hstatus]

/-- In every store of the live pipeline: the timeline of a payment of the list is found, its
decision and attribution are those of the list's row, and the ledger's row of that decision has
the command, execution attempt, observation and attribution of the timeline, and shows the
amount that the timeline shows. -/
theorem views_agree {policy : InterventionPolicy} {as : List LiveAction} {w : LiveWorld}
    (h : liveRun policy as = some w) {order : ℕ → ℕ} {orders : ℕ → ℕ → ℕ} {q : PaymentsQuery}
    {row : PaymentRow} (hrow : row ∈ paymentRows order w.db q)
    (hclean : pyStrip row.paymentId = row.paymentId) :
    ∃ t, getPaymentTimeline orders w.db row.paymentId = .ok t ∧ t.paymentId = row.paymentId ∧
      row.decision = t.decision.map (fun d => (d.decisionType, d.decisionId)) ∧
      row.attribution = t.attribution ∧
      ∀ d, t.decision = some d → ∃ r ∈ ledgerRows w.db, r.decision = d ∧
        r.command = t.command ∧ r.attempt = t.execution ∧ r.observation = t.observation ∧
        r.attribution = t.attribution ∧ r.amount = shownAmount t.attribution := by
  have hdb := liveRun_inspectable h
  obtain ⟨r, hr, rfl⟩ := List.mem_map.mp hrow
  obtain ⟨hjoin, hselected⟩ := List.mem_filter.mp hr
  have hcanonical := (of_decide_eq_true hselected).1
  obtain ⟨he, -⟩ := Inspectable.paymentJoins_selects hjoin
  have hin : r.event.inRazorpayPipeline = true := by
    have hmem := (hdb.mem_canonicalEvents he).mp hcanonical
    exact (List.mem_filter.mp (Table.mem_scan.mp (distinctOn_spec hmem).1)).2
  have hclean' : pyStrip r.event.paymentId = r.event.paymentId := hclean
  obtain ⟨t, hok, ht⟩ := hdb.getPaymentTimeline_eq_ok orders he hclean'.symm hin
  rw [hclean'] at ht
  obtain ⟨hdecision, hattribution⟩ := hdb.row_eq_timeline hjoin ht
  refine ⟨t, hok, ht.paymentId, ?_, hattribution, fun d hd => ?_⟩
  · rw [← hdecision]
    rfl
  · have hstored : d ∈ (ledgerJoins w.db).map (·.decision) := by
      have hselects := ht.decision
      rw [hd] at hselects
      rw [hdb.ledgerJoins_decision]
      exact hselects.1
    obtain ⟨l, hl, rfl⟩ := List.mem_map.mp hstored
    obtain ⟨hcommand, hattempt, hobservation, hsame⟩ := hdb.ledger_eq_timeline ht hl hd
    refine ⟨l, List.mem_filter.mpr ⟨hl, rfl⟩, rfl, hcommand, hattempt, hobservation, hsame, ?_⟩
    rw [hdb.amount_eq_shown hl, hsame]

namespace InspectionExample

/-- The start of the degradation. -/
def t₀ : Time := Time.weeks 2

def episodeId : EpisodeId := ⟨"BANK", "HDFC", t₀⟩

def evaluationId : EvaluationId := ⟨episodeId, 1⟩

/-- A critical episode of the bank, with a strong cause. -/
def degraded : AnalyticsTables where
  episodes := [⟨episodeId, "BANK", "HDFC", t₀, none, .active, 1, 3, .critical⟩]
  history := [⟨1, episodeId, "BANK", "HDFC", .active, .critical, t₀, t₀ + Time.minutes 15⟩]
  evaluations := [{
    evaluationId := evaluationId
    episodeId := episodeId
    evaluationVersion := 1
    classification := .segmentSpecific
    analysisWindowStart := t₀
    analysisWindowEnd := t₀ + Time.minutes 15
    inputFingerprint := ⟨episodeId, .active, t₀, t₀ + Time.minutes 15, 50, 50, []⟩
    generatedAt := t₀ + Time.minutes 15 }]
  candidates := [⟨evaluationId, "BANK", "HDFC", .strong, 1, 50, 0, 50, 1⟩]

def event (i : ℕ) (paymentId eventType : String) (t : Time) : PaymentEvent :=
  { eventId := i, sourceSystem := razorpaySourceSystem, sourceEventId := toString i,
    paymentId := paymentId, timestamp := t, eventType := eventType, currency := "INR",
    bank := some "HDFC", amountMinorUnits := 10000, paymentStatus := "x", ingestedAt := t }

/-- Run `i` takes `n` steps; Stages 2-4 leave the episode, and the simulator succeeds. -/
def advances (i n : ℕ) : List LiveAction :=
  List.replicate n (.advance i
    { tables := some degraded
      result := some ⟨.success, "SIMULATOR_V1", true, routeActionType .retrySecondaryGateway,
        some "SIMULATED_ACK", none, 15⟩ })

/-- Fifty failures, and a payment that is authorized, decided on and captured. -/
def run : List LiveAction :=
  ((List.range 50).map fun i =>
      .arrive (event i (toString i) failedEventType (t₀ + Time.minutes 10))) ++
    .arrive (event 50 "pay_1" pipelineTriggerEventType (t₀ + Time.minutes 16)) ::
      advances 50 22 ++
    .arrive (event 51 "pay_1" capturedEventType (t₀ + Time.minutes 20)) :: advances 51 11

end InspectionExample

open InspectionExample in
/-- The payment with the attribution. -/
theorem views_agree_example : ∃ w row t, liveRun getDefaultPolicy run = some w ∧
    row ∈ paymentRows (fun i => i) w.db ∧ row.attribution.isSome = true ∧
    getPaymentTimeline (fun _ i => i) w.db row.paymentId = .ok t ∧
    row.attribution = t.attribution := by
  have hrun : ((liveRun getDefaultPolicy run).map fun w =>
      (paymentRows (fun i => i) w.db).any fun row => row.attribution.isSome &&
        decide (pyStrip row.paymentId = row.paymentId)) = some true := by decide +kernel
  obtain ⟨w, hw, hany⟩ := Option.map_eq_some_iff.mp hrun
  obtain ⟨row, hrow, hfacts⟩ := List.any_eq_true.mp hany
  obtain ⟨hattribution, hclean⟩ := Bool.and_eq_true_iff.mp hfacts
  obtain ⟨t, hok, -, -, hsame, -⟩ := views_agree hw hrow (of_decide_eq_true hclean)
  exact ⟨w, row, t, hw, hrow, hattribution, hok, hsame⟩

end Views

end RevenueRecovery
