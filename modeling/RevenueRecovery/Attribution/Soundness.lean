import RevenueRecovery.Rows
import RevenueRecovery.Services.World

/-!
# Stage 8: soundness of attributions

Whatever calls were made in whatever order, an attribution that credits the intervention
rests on an `ACT` decision with a usable prediction, a successful execution attempt, and an
observation that found a capture first, after the execution (`attributions_sound`).

## Main definitions
* `Credits` : the attribution credits the intervention.
* `Supported` : the stored rows an attribution that credits rests on.
* `ObservedCapture` : the run made the observation, and it found this capture first.
-/
namespace RevenueRecovery

open Transaction

/-- The attribution credits the intervention. -/
def Credits (a : CounterfactualAttribution) : Prop :=
  a.attributionStatus = .attributed ∨ 0 < a.attributedProtectedGmvMinorUnits

/-- The store has the rows that an attribution that credits rests on. -/
def Supported (db : Database) (a : CounterfactualAttribution) : Prop :=
  ∃ cmd ∈ db.commands, cmd.commandId = a.commandId ∧
    (∃ d ∈ db.decisions, d.decisionId = cmd.decisionId ∧ d.decisionType = .act ∧
      ∃ p ∈ db.predictions, d.stage5PredictionId = some p.predictionId ∧
        p.predictionStatus = .predicted ∧ p.failureProbability.isSome = true) ∧
    ∃ x ∈ db.executionAttempts, x.commandId = a.commandId ∧ x.executionStatus = .success ∧
      x.createdAt ≤ a.asOfTimestamp ∧
      ∃ o ∈ db.observations, o.commandId = a.commandId ∧ o.asOfTimestamp ≤ a.asOfTimestamp ∧
        o.paymentOutcome = .captured ∧ o.sourceSystem = cmd.sourceSystem ∧
        o.paymentAttemptId = cmd.paymentAttemptId ∧
        ∀ t, o.terminalEventTimestamp = some t → x.completedAt ≤ t

theorem Supported.mono {db db' : Database} {a : CounterfactualAttribution}
    (h : Supported db a) (hkeeps : Keeps db db') : Supported db' a := by
  obtain ⟨cmd, hcmd, hid, ⟨d, hd, hdid, hact, p, hp, hrest⟩, x, hx, hxid, hxs, hxt, o, ho,
    hoid, hot, hcap, hsource, hkey, hts⟩ := h
  obtain ⟨cmd', hcmd', hsame⟩ := hkeeps.commands cmd hcmd
  refine ⟨cmd', hcmd', hsame.commandId.trans hid,
    ⟨d, hkeeps.decisions hd, hdid.trans hsame.decisionId.symm, hact, p, hkeeps.predictions hp,
      hrest⟩,
    x, hkeeps.executionAttempts hx, hxid, hxs, hxt, o, hkeeps.observations ho, hoid, hot, hcap,
    hsource.trans hsame.sourceSystem.symm, hkey.trans hsame.paymentAttemptId.symm, hts⟩

/-- An attribution that credits is supported by the rows it was computed from. -/
theorem attribution_supported {r : Reads} {id : CommandId} {asOf : Time}
    {a : CounterfactualAttribution}
    (h : attributePaymentIntervention r id asOf = .ok (.inr a)) (hcredits : Credits a)
    {db : Database} (hkeeps : ∀ k, Keeps (r.db k) db) : Supported db a := by
  obtain ⟨u, hu, -, rfl⟩ := attributePaymentIntervention_spec h
  obtain ⟨hcmd, hattempt, hobs, hdec, hpred, -, hconsistent⟩ := readUpstream_spec hu
  obtain ⟨htreated, houtcome, hstatus, hp0⟩ := calculateAttribution_attributed hcredits
  obtain ⟨hact, x, hx, hsuccess, hbefore⟩ := Upstream.treatmentStatus_treated htreated
  -- a captured outcome is that of an observation, a predicted status that of a prediction
  obtain ⟨o, ho⟩ : ∃ o, u.observation = some o := by
    cases hob : u.observation with
    | none => simp [Upstream.observedOutcome, hob] at houtcome
    | some o => exact ⟨o, rfl⟩
  obtain ⟨p, hp⟩ : ∃ p, u.prediction = some p := by
    cases hpr : u.prediction with
    | none => simp [Upstream.predictionStatus, hpr] at hstatus
    | some p => exact ⟨p, rfl⟩
  have hcmdmem : u.command ∈ (r.db 4).commands := List.mem_of_find?_eq_some hcmd
  have hcmdid : u.command.commandId = id := by simpa using List.find?_some hcmd
  have hdecmem : u.decision ∈ (r.db 7).decisions := List.mem_of_find?_eq_some hdec
  have hdecid : u.decision.decisionId = u.command.decisionId := by
    simpa using List.find?_some hdec
  rw [hx] at hattempt
  rw [ho] at hobs
  have hxmem := Table.latestBy_mem hattempt.symm
  have homem := Table.latestBy_mem hobs.symm
  simp only [List.mem_filter, decide_eq_true_eq] at hxmem homem
  obtain ⟨pid, hpid, hpget⟩ := Option.bind_eq_some_iff.mp (hpred.symm.trans hp)
  have hpmem : p ∈ (r.db 8).predictions := List.mem_of_find?_eq_some hpget
  have hpid' : p.predictionId = pid := by simpa using List.find?_some hpget
  obtain ⟨cmd, hcmd', hsame⟩ := (hkeeps 4).commands _ hcmdmem
  simp only [Upstream.consistent, ho, Option.all_some, Bool.and_eq_true, beq_iff_eq]
    at hconsistent
  refine ⟨cmd, hcmd', hsame.commandId,
    ⟨u.decision, (hkeeps 7).decisions hdecmem, hdecid.trans hsame.decisionId.symm, hact,
      p, (hkeeps 8).predictions hpmem, by rw [hpid, hpid'], ?_, ?_⟩,
    x, (hkeeps 5).executionAttempts hxmem.1, hxmem.2.1.trans hcmdid.symm, hsuccess, hxmem.2.2,
    o, (hkeeps 6).observations homem.1, homem.2.1.trans hcmdid.symm, homem.2.2, ?_, ?_, ?_, ?_⟩
  · simpa [Upstream.predictionStatus, hp] using hstatus
  · simpa [Upstream.p0, hp] using hp0
  · simpa [Upstream.observedOutcome, ho] using houtcome
  · exact hconsistent.1.1.2.trans hsame.sourceSystem.symm
  · exact hconsistent.2.trans hsame.paymentAttemptId.symm
  · intro t ht
    simp only [Upstream.outcomeBefore, ho, Option.bind_some, ht, decide_eq_false_iff_not]
      at hbefore
    exact Int.not_lt.mp hbefore

/-! ## The invariant -/

section Invariant
variable (model : FailurePredictionModel) (policy : InterventionPolicy)
  (C : PaymentOutcomeObservation → Prop)

/-- Committed attributions that credit are supported, and every observation meets `C`. -/
structure AttributionStore (db : Database) : Prop where
  observations : ∀ o ∈ db.observations, C o
  attributions : ∀ a ∈ db.attributions, Credits a → Supported db a

/-- What holds of a call: earlier reads are still in the store, and its own rows are as
the committed ones. -/
structure AttributionLocal (db : Database) (s : ServiceSession) : Prop where
  views : ∀ v ∈ s.views, Keeps v ((serviceProgram model policy).view db s)
  observations : ∀ o, .insertObservation o ∈ s.pending → C o
  attributions : ∀ a, .appendAttribution a ∈ s.pending → Credits a →
    Supported ((serviceProgram model policy).view db s) a

/-- The observations the calls make meet `C`. -/
def observeGuard (db : Database) (s : ServiceSession) (input : CallInput) : Prop :=
  ∀ id asOf o, s.proc = .running (.observe id asOf) →
    observe (input.reads ((serviceProgram model policy).reads db s)) id asOf = .ok o → C o

variable {model policy C} {db db' : Database} {s : ServiceSession}

theorem AttributionLocal.fresh (p : ServiceProc) :
    AttributionLocal model policy C db (.fresh p) := by
  constructor <;> simp

/-- A later committed store keeps a session's invariant. -/
theorem AttributionLocal.mono (h : AttributionLocal model policy C db s)
    (hkeeps : Keeps db db') : AttributionLocal model policy C db' s where
  views v hv := (h.views v hv).trans (hkeeps.foldl_mono _)
  observations := h.observations
  attributions a ha hcredits := (h.attributions a ha hcredits).mono (hkeeps.foldl_mono _)

/-- Everything the step reads is in the session's view. -/
theorem AttributionLocal.reads (h : AttributionLocal model policy C db s) (k : ℕ) :
    Keeps ((serviceProgram model policy).reads db s k)
      ((serviceProgram model policy).view db s) := by
  rcases (serviceProgram model policy).reads_cases db s k with hmem | heq
  · exact h.views _ hmem
  · rw [heq]
    exact .refl _

/-- A session that only moves on keeps its invariant. -/
theorem AttributionLocal.moved (h : AttributionLocal model policy C db s) {s' : ServiceSession}
    (hpending : s'.pending = s.pending) (hviews : s'.views = []) :
    AttributionLocal model policy C db s' where
  views := by simp [hviews]
  observations := by rw [hpending]; exact h.observations
  attributions := by
    simp only [serviceProgram_view, hpending]
    exact h.attributions

/-- The rows a step writes are as the committed ones. -/
theorem AttributionLocal.wrote (h : AttributionLocal model policy C db s) {input : CallInput}
    (hg : observeGuard model policy C db s input) {ws : List Write} {next : ServiceProc}
    (hstep : (serviceProgram model policy).outcome db s input = some (.write ws next)) :
    AttributionLocal model policy C db (s.wrote ws next) := by
  rcases serviceStepped hstep with ⟨-, -, ho⟩ | ho | ⟨p, o', hp, ho, hcall⟩
  · cases ho
  · cases ho
  cases o' with
  | write vs next' =>
      obtain ⟨rfl, -⟩ := Outcome.write.inj ho
      have hview : Keeps ((serviceProgram model policy).view db s)
          ((serviceProgram model policy).view db (s.wrote ws next)) :=
        keeps_view_wrote rfl db s ws next
      refine ⟨by simp [Session.wrote], fun o ho => ?_, fun a ha hcredits => ?_⟩
      · rcases List.mem_append.mp ho with ho | ho
        · exact h.observations o ho
        · obtain ⟨id, asOf, rfl, hobs⟩ := hcall.origin ho
          exact hg id asOf o hp hobs
      · rcases List.mem_append.mp ha with ha | ha
        · exact (h.attributions a ha hcredits).mono hview
        · obtain ⟨id, asOf, rfl, hattr⟩ := hcall.origin ha
          exact attribution_supported hattr hcredits fun k => (h.reads k).trans hview
  | _ => cases ho

/-- Committing a session's rows keeps the store invariant. -/
theorem AttributionLocal.commit (h : AttributionLocal model policy C db s)
    (hstore : AttributionStore C db) :
    AttributionStore C ((serviceProgram model policy).view db s) where
  observations o ho := by
    rcases (Adds.foldl db s.pending).observations o ho with ho | ho
    · exact hstore.observations o ho
    · exact h.observations o ho
  attributions a ha hcredits := by
    rcases (Adds.foldl db s.pending).attributions a ha with ha | ha
    · exact (hstore.attributions a ha hcredits).mono (.foldl db s.pending)
    · exact h.attributions a ha hcredits

/-- Arrivals insert no observation and no attribution. -/
theorem AttributionStore.arrive (h : AttributionStore C db) (x : ServiceArrival) :
    AttributionStore C (x.effect.1.foldl Database.apply db) where
  observations o ho := by
    rcases (Adds.foldl db x.effect.1).observations o ho with ho | ho
    · exact h.observations o ho
    · cases x <;> simp [ServiceArrival.effect] at ho
  attributions a ha hcredits := by
    rcases (Adds.foldl db x.effect.1).attributions a ha with ha | ha
    · exact (h.attributions a ha hcredits).mono (.foldl db x.effect.1)
    · cases x <;> simp [ServiceArrival.effect] at ha

theorem attributionInvariant :
    (serviceProgram model policy).Invariant (observeGuard model policy C) (AttributionStore C)
      (AttributionLocal model policy C) where
  arrive {db x ws ps} hG harr _ := by
    obtain ⟨rfl, rfl⟩ : x.effect.1 = ws ∧ x.effect.2 = ps := by
      simpa [serviceProgram, Prod.ext_iff] using harr
    exact ⟨hG.arrive x, fun s hs _ => hs.mono (.foldl db x.effect.1), fun p _ => .fresh p⟩
  look {db s} _ h := by
    refine ⟨fun v hv => ?_, h.observations, h.attributions⟩
    rcases List.mem_append.mp hv with hv | hv
    · exact h.views v hv
    · obtain rfl := List.mem_singleton.mp hv
      exact .refl _
  abort _ _ := .fresh _
  lock _ h _ _ := h.moved rfl rfl
  write _ h hg hstep _ := h.wrote hg hstep
  call _ h _ _ := h.moved rfl rfl
  rollback _ _ _ _ := .fresh _
  commit {db s input next} hG h _ _ :=
    ⟨h.commit hG, .fresh _, fun t ht _ => ht.mono (.foldl db s.pending)⟩

end Invariant

/-! ## Soundness -/

section Soundness
variable {model : FailurePredictionModel} {policy : InterventionPolicy}

/-- Some step of the run made the observation. -/
def Observed (model : FailurePredictionModel) (policy : InterventionPolicy)
    (as : List ServiceAction) (o : PaymentOutcomeObservation) : Prop :=
  Run.Occurs (serviceProgram model policy).worldStep ⟨{}, [], []⟩ as fun w a =>
    ∃ (i : ℕ) (input : CallInput) (s : ServiceSession) (id : CommandId) (asOf : Time),
      a = .advance i input ∧ w.sessions[i]? = some s ∧ s.proc = .running (.observe id asOf) ∧
      observe (input.reads ((serviceProgram model policy).reads w.db s)) id asOf = .ok o

/-- Some step of the run made the observation, and among the terminal events of the attempt
it read, ingested by its `asOf`, this capture was ingested first. -/
def ObservedCapture (model : FailurePredictionModel) (policy : InterventionPolicy)
    (as : List ServiceAction) (cmd : InterventionCommand) (o : PaymentOutcomeObservation)
    (e : PaymentEvent) : Prop :=
  Run.Occurs (serviceProgram model policy).worldStep ⟨{}, [], []⟩ as fun w a =>
    ∃ (i : ℕ) (input : CallInput) (s : ServiceSession) (id : CommandId) (asOf : Time),
      a = .advance i input ∧ w.sessions[i]? = some s ∧ s.proc = .running (.observe id asOf) ∧
      observe (input.reads ((serviceProgram model policy).reads w.db s)) id asOf = .ok o ∧
      let events := ((serviceProgram model policy).reads w.db s 2).events
      e ∈ events ∧ e.eventType = capturedEventType ∧
        isTerminalFrom cmd.sourceSystem cmd.paymentAttemptId e = true ∧
        e.ingestedAt ≤ o.asOfTimestamp ∧
        ∀ e' ∈ events, isTerminalFrom cmd.sourceSystem cmd.paymentAttemptId e' = true →
          e'.ingestedAt ≤ o.asOfTimestamp → e.ingestedAt ≤ e'.ingestedAt

/-- In a run, every observation that is made was made by the run. -/
theorem guarded_observed (as : List ServiceAction) :
    Run.Guarded (serviceProgram model policy).worldStep
      (Program.worldGuard (observeGuard model policy (Observed model policy as)))
      ⟨{}, [], []⟩ as := by
  refine Run.guarded_of_forall fun as₁ a as₂ w heq hw => ?_
  cases a with
  | advance i input =>
      intro s hs id asOf o hproc hobs
      exact ⟨as₁, _, as₂, w, heq, hw, i, input, s, id, asOf, rfl, hs, hproc, hobs⟩
  | _ => exact trivial

/-- A captured observation found a capture first; its timestamp is the observation's. -/
theorem Observed.capture {as : List ServiceAction} {o : PaymentOutcomeObservation}
    (h : Observed model policy as o) (hcaptured : o.paymentOutcome = .captured)
    {cmd : InterventionCommand} (hsource : o.sourceSystem = cmd.sourceSystem)
    (hkey : o.paymentAttemptId = cmd.paymentAttemptId) :
    ∃ e, ObservedCapture model policy as cmd o e ∧ o.terminalEventTimestamp = some e.timestamp := by
  obtain ⟨as₁, a, as₂, w, heq, hw, i, input, s, id, asOf, ha, hs, hproc, hobs⟩ := h
  obtain ⟨c, row, hget, hreq, hrow⟩ := observe_spec hobs
  rw [hrow] at hcaptured
  obtain ⟨e, he, htype, hterm, hasOf, hfirst, -, hts⟩ := newObservation_captured hcaptured
  have hc : c.sourceSystem = cmd.sourceSystem ∧ c.paymentAttemptId = cmd.paymentAttemptId := by
    rw [hrow] at hsource hkey
    exact ⟨hsource, hkey⟩
  rw [hc.1, hc.2] at hterm hfirst
  have ho : o.asOfTimestamp = asOf := by rw [hrow]; rfl
  refine ⟨e, ⟨as₁, a, as₂, w, heq, hw, i, input, s, id, asOf, ha, hs, hproc, hobs, he, htype,
    hterm, ho ▸ hasOf, fun e' he' ht' hle => hfirst e' he' ht' (ho ▸ hle)⟩, ?_⟩
  rw [hrow]
  exact hts

/-- In every reachable store, an attribution that credits the intervention is of a command
whose decision is `ACT` and whose prediction has a probability, with a successful execution
attempt and an observation known by then; the observation found a capture of the attempt
first, which happened no earlier than the end of the execution. -/
theorem attributions_sound {as : List ServiceAction} {w : ServiceWorld}
    (h : serviceRun model policy as = some w) :
    ∀ a ∈ w.db.attributions, Credits a →
      ∃ cmd d p x o e, w.db.getCommandById a.commandId = some cmd ∧
        getDecision w.db cmd.decisionId = some d ∧ d.decisionType = .act ∧
        d.stage5PredictionId.bind (getPrediction w.db) = some p ∧
        p.predictionStatus = .predicted ∧ p.failureProbability.isSome = true ∧
        (x ∈ w.db.executionAttempts ∧ x.commandId = a.commandId ∧
          x.executionStatus = .success ∧ x.createdAt ≤ a.asOfTimestamp) ∧
        (o ∈ w.db.observations ∧ o.commandId = a.commandId ∧
          o.asOfTimestamp ≤ a.asOfTimestamp) ∧
        ObservedCapture model policy as cmd o e ∧ x.completedAt ≤ e.timestamp := by
  intro a ha hcredits
  have hunique := serviceRun_unique h
  have hstart : (serviceProgram model policy).Good (AttributionStore (Observed model policy as))
      (AttributionLocal model policy (Observed model policy as)) ⟨{}, [], []⟩ :=
    .empty ⟨by simp, by simp⟩
  have hgood := attributionInvariant.exec hstart (guarded_observed as) h
  obtain ⟨cmd, hcmd, hid, ⟨d, hd, hdid, hact, p, hp, hpid, hps, hpp⟩, x, hx, hxid, hxs, hxt,
    o, ho, hoid, hot, hcap, hsource, hkey, hts⟩ := hgood.store.attributions a ha hcredits
  obtain ⟨e, hobserved, hterm⟩ := (hgood.store.observations o ho).capture hcap hsource hkey
  refine ⟨cmd, d, p, x, o, e, hid ▸ hunique.getCommandById hcmd, hdid ▸ hunique.getDecision hd,
    hact, ?_, hps, hpp, ⟨hx, hxid, hxs, hxt⟩, ⟨ho, hoid, hot⟩, hobserved, hts _ hterm⟩
  rw [hpid, Option.bind_some]
  exact hunique.getPrediction hp

namespace AttributionExample

def tDecide : Time := Time.minutes 60

/-- A failed payment of the half hour before the decision. -/
def failure (i : ℕ) : PaymentEvent :=
  { eventId := i + 10, sourceSystem := razorpaySourceSystem, sourceEventId := toString i,
    paymentId := toString i, timestamp := Time.minutes 40, eventType := failedEventType,
    currency := "INR", amountMinorUnits := 10000, paymentStatus := "failed",
    ingestedAt := Time.minutes 41 }

def authorization : PaymentEvent :=
  { failure 0 with
    eventId := 0, sourceEventId := "a", paymentId := "pay_1", timestamp := tDecide
    eventType := pipelineTriggerEventType, ingestedAt := tDecide }

def capture : PaymentEvent :=
  { failure 0 with
    eventId := 1, sourceEventId := "c", paymentId := "pay_1"
    timestamp := tDecide + Time.seconds 30
    eventType := capturedEventType, ingestedAt := tDecide + Time.seconds 31 }

def ref : AttemptRef := ⟨razorpaySourceSystem, "pay_1", "pay_1", validAttemptIdentity_pay_1⟩

def episodeId : EpisodeId := ⟨"GLOBAL", "ALL", 0⟩

/-- A critical global episode with a systemic root cause. -/
def tables : AnalyticsTables :=
  { history := [⟨0, episodeId, "GLOBAL", "ALL", .active, .critical, 0, Time.minutes 50⟩]
    evaluations := [⟨⟨episodeId, 1⟩, episodeId, 1, .systemic, 0, Time.minutes 5,
      ⟨episodeId, .active, 0, Time.minutes 5, 50, 50, []⟩, Time.minutes 50, {}⟩] }

/-- Call `i` takes `n` steps; the executor returns a success. -/
def advances (i n : ℕ) : List ServiceAction :=
  List.replicate n (.advance i
    { result := some ⟨.success, "SIMULATOR_V1", true, "GATEWAY_REROUTE", none, none, 15⟩ })

/-- Fifty failures and an authorization, its prediction and its decision. -/
def decisionCalls : List ServiceAction :=
  (List.range 50).map (fun i => .arrive (.event (failure i))) ++
    [.arrive (.event authorization), .arrive (.attempt ⟨"pay_1", razorpaySourceSystem, "pay_1", 0⟩),
      .arrive (.analytics tables), .arrive (.predict ref tDecide)] ++ advances 0 3 ++
    [.arrive (.decide ref tDecide)] ++ advances 1 4

/-- The command of the decision, its execution, the capture, and its settlement. -/
def settlementCalls (d : InterventionDecision) : List ServiceAction :=
  [.arrive (.createCommand d 300 tDecide)] ++ advances 2 2 ++
    [.arrive (.executeCommand ⟨d.decisionId⟩ tDecide)] ++ advances 3 8 ++
    [.arrive (.event capture), .arrive (.observe ⟨d.decisionId⟩ (tDecide + Time.minutes 1))] ++
    advances 4 2 ++
    [.arrive (.attributePayment ⟨d.decisionId⟩ (tDecide + Time.minutes 1))] ++ advances 5 3

/-- The run of both, for the decision the first part makes. -/
def settledRun : Option (List ServiceAction × ServiceWorld) := do
  let w ← serviceRun deterministicBaselineModel getDefaultPolicy decisionCalls
  let d ← w.db.decisions.head?
  let as := decisionCalls ++ settlementCalls d
  let w' ← serviceRun deterministicBaselineModel getDefaultPolicy as
  return (as, w')

end AttributionExample

open AttributionExample in
theorem attributions_sound_settled : ∃ as w,
    serviceRun deterministicBaselineModel getDefaultPolicy as = some w ∧
    ∃ a ∈ w.db.attributions, Credits a ∧ ∃ cmd o e, o.commandId = a.commandId ∧
      ObservedCapture deterministicBaselineModel getDefaultPolicy as cmd o e := by
  have hrun : (settledRun.map fun r => r.2.db.attributions.any
      (·.attributionStatus == .attributed)) = some true := by decide +kernel
  obtain ⟨⟨as, w⟩, hsettled, hany⟩ := Option.map_eq_some_iff.mp hrun
  have hw : serviceRun deterministicBaselineModel getDefaultPolicy as = some w := by
    simp only [settledRun, Option.bind_eq_bind, Option.bind_eq_some_iff, Option.pure_def,
      Option.some.injEq, Prod.mk.injEq] at hsettled
    obtain ⟨w₀, -, d, -, w', hw', rfl, rfl⟩ := hsettled
    exact hw'
  obtain ⟨a, ha, hstatus⟩ := List.any_eq_true.mp hany
  have hcredits : Credits a := .inl (by simpa using hstatus)
  obtain ⟨cmd, d, p, x, o, e, -, -, -, -, -, -, -, ⟨-, hid, -⟩, hobserved, -⟩ :=
    attributions_sound hw a ha hcredits
  exact ⟨as, w, hw, a, ha, hcredits, cmd, o, e, hid, hobserved⟩

end Soundness

end RevenueRecovery
