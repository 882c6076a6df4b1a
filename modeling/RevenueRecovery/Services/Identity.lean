import RevenueRecovery.Lib.Provenance
import RevenueRecovery.Execution.LifeCycle
import RevenueRecovery.Intervention.DecisionLog
import RevenueRecovery.Services.Configured

/-!
# Whose attempt a row is about

Each row of Stages 5-8 names an attempt and the provider it belongs to, both copied from the
row before it in the chain: prediction, decision, command, and then execution attempt,
observation and attribution. The registry decides whose attempt a key is.

## Main definitions
* `Leads` : a later store keeps the rows and the registry.
* `Identified`, `Identities` : a row copies the identity of the row before it.
* `IdentityKnows` : what a call knows of the identity it works with.
* `IdentityChain` : rows carry the registered provider, and linked rows agree.
-/
namespace RevenueRecovery

open Transaction

/-- A later store keeps the rows, and finds the registry rows that are found. -/
structure Leads (db db' : Database) : Prop where
  rows : Keeps db db'
  registry : KeepsRegistry db db'

namespace Leads

theorem refl (db : Database) : Leads db db := ⟨.refl db, .refl db⟩

theorem trans {a b c : Database} (h : Leads a b) (h' : Leads b c) : Leads a c :=
  ⟨h.rows.trans h'.rows, h.registry.trans h'.registry⟩

theorem foldl (db : Database) (ws : List Write) : Leads db (ws.foldl Database.apply db) :=
  ⟨.foldl db ws, .foldl db ws⟩

/-- Every program over the tables leads on, when what arrives registers no attempt. -/
theorem grows {Lock Effect Proc Input Arrival : Type}
    {P : Program Database Write Lock Effect Proc Input Arrival} (ha : P.apply = Database.apply)
    (hc : P.clashes = Write.clashes)
    (harrive : ∀ {db x ws ps}, P.arrive x db = some (ws, ps) →
      ws.filterMap Write.registration? = []) : P.Grows Leads where
  refl := refl
  trans := trans
  write db ws := by
    rw [applyAll_eq_foldl ha]
    exact foldl db ws
  arrive {db x ws ps} vs harr := by
    simp only [applyAll_eq_foldl ha]
    exact ⟨(Keeps.foldl db ws).foldl_mono vs, .foldl_of_none db (harrive harr) vs⟩
  commit {ws vs} db h := by
    simp only [applyAll_eq_foldl ha]
    exact ⟨(Keeps.foldl db ws).foldl_mono vs, .foldl_of_apart db (hc ▸ h)⟩

end Leads

/-! ## Rows -/

/-- A decision is named by its attempt and version. -/
def InterventionDecision.Named (d : InterventionDecision) : Prop :=
  d.decisionId = ⟨d.paymentAttemptId, d.decisionVersion⟩

instance (d : InterventionDecision) : Decidable d.Named :=
  inferInstanceAs (Decidable (d.decisionId = ⟨d.paymentAttemptId, d.decisionVersion⟩))

/-- The row copies the identity of the row before it, and the first ones are of a registered
attempt. -/
def Identified (db : Database) : Write → Prop
  | .appendPrediction p => p.predictionId = ⟨p.paymentAttemptId, p.predictionVersion⟩ ∧
      Registered db p.sourceSystem p.paymentAttemptId
  | .appendDecision d => d.Named ∧ Registered db d.sourceSystem d.paymentAttemptId ∧
      ∀ id, d.stage5PredictionId = some id → id.paymentAttemptId = d.paymentAttemptId
  | .insertCommand c => c.commandId = ⟨c.decisionId⟩ ∧
      c.decisionId.paymentAttemptId = c.paymentAttemptId ∧
      Registered db c.sourceSystem c.paymentAttemptId
  | .insertExecutionAttempt a =>
      ∃ c ∈ db.commands, c.commandId = a.commandId ∧ c.sourceSystem = a.sourceSystem
  | .insertObservation o => ∃ c ∈ db.commands, c.commandId = o.commandId ∧
      c.sourceSystem = o.sourceSystem ∧ c.paymentAttemptId = o.paymentAttemptId
  | .appendAttribution a => ∃ c ∈ db.commands, c.commandId = a.commandId ∧
      c.sourceSystem = a.sourceSystem ∧ c.paymentAttemptId = a.paymentAttemptId ∧
      c.decisionId = a.decisionId
  | _ => True

/-- Every row of Stages 5-8 is identified. -/
structure Identities (db : Database) : Prop where
  predictions : ∀ p ∈ db.predictions, Identified db (.appendPrediction p)
  decisions : ∀ d ∈ db.decisions, Identified db (.appendDecision d)
  commands : ∀ c ∈ db.commands, Identified db (.insertCommand c)
  executionAttempts : ∀ a ∈ db.executionAttempts, Identified db (.insertExecutionAttempt a)
  observations : ∀ o ∈ db.observations, Identified db (.insertObservation o)
  attributions : ∀ a ∈ db.attributions, Identified db (.appendAttribution a)

section Rows
variable {db db' : Database}

theorem Identities.empty : Identities {} := by constructor <;> simp

/-- A later store identifies the row as well. -/
theorem Identified.mono {w : Write} (h : Identified db w) (hlater : Leads db db') :
    Identified db' w := by
  cases w with
  | appendPrediction p => exact ⟨h.1, h.2.mono hlater.registry⟩
  | appendDecision d => exact ⟨h.1, h.2.1.mono hlater.registry, h.2.2⟩
  | insertCommand c => exact ⟨h.1, h.2.1, h.2.2.mono hlater.registry⟩
  | insertExecutionAttempt a =>
      obtain ⟨c, hc, hid, hsource⟩ := h
      obtain ⟨c', hc', hsame⟩ := hlater.rows.commands c hc
      exact ⟨c', hc', hsame.commandId.trans hid, hsame.sourceSystem.trans hsource⟩
  | insertObservation o =>
      obtain ⟨c, hc, hid, hsource, hkey⟩ := h
      obtain ⟨c', hc', hsame⟩ := hlater.rows.commands c hc
      exact ⟨c', hc', hsame.commandId.trans hid, hsame.sourceSystem.trans hsource,
        hsame.paymentAttemptId.trans hkey⟩
  | appendAttribution a =>
      obtain ⟨c, hc, hid, hsource, hkey, hdecision⟩ := h
      obtain ⟨c', hc', hsame⟩ := hlater.rows.commands c hc
      exact ⟨c', hc', hsame.commandId.trans hid, hsame.sourceSystem.trans hsource,
        hsame.paymentAttemptId.trans hkey, hsame.decisionId.trans hdecision⟩
  | _ => exact trivial

/-- The life cycle of a command does not change whose it is. -/
theorem Identified.samePayload {c c' : InterventionCommand}
    (h : Identified db (.insertCommand c)) (hsame : c.SamePayload c') :
    Identified db (.insertCommand c') := by
  rw [hsame]
  exact h

/-- Identified writes lead to a store with identified rows. -/
theorem Identities.foldl {ws : List Write} (h : Identities db)
    (hws : ∀ w ∈ ws, Identified (ws.foldl Database.apply db) w) :
    Identities (ws.foldl Database.apply db) := by
  have hadds := Adds.foldl db ws
  have hlater := Leads.foldl db ws
  refine ⟨fun p hp => ?_, fun d hd => ?_, fun c hc => ?_, fun a ha => ?_, fun o ho => ?_,
    fun a ha => ?_⟩
  · exact (hadds.predictions p hp).elim (fun h' => (h.predictions p h').mono hlater) (hws _)
  · exact (hadds.decisions d hd).elim (fun h' => (h.decisions d h').mono hlater) (hws _)
  · rcases hadds.commands c hc with ⟨c₀, hc₀, hsame⟩ | ⟨c₀, hc₀, hsame⟩
    · exact ((h.commands c₀ hc₀).mono hlater).samePayload hsame
    · exact (hws _ hc₀).samePayload hsame
  · rw [Database.executionAttempts_foldl] at ha
    rcases List.mem_append.mp ha with ha | ha
    · exact (h.executionAttempts a ha).mono hlater
    · exact hws _ (mem_filterMap_executionAttempt?.mp ha)
  · exact (hadds.observations o ho).elim (fun h' => (h.observations o h').mono hlater) (hws _)
  · exact (hadds.attributions a ha).elim (fun h' => (h.attributions a h').mono hlater) (hws _)

/-- A command that was read is still there, whatever has become of it. -/
theorem Leads.getCommandById {id : CommandId} {cmd : InterventionCommand} (h : Leads db db')
    (hget : db.getCommandById id = some cmd) :
    cmd.commandId = id ∧ ∃ c ∈ db'.commands, cmd.SamePayload c :=
  ⟨by simpa using List.find?_some hget, h.rows.commands cmd (List.mem_of_find?_eq_some hget)⟩

end Rows

/-! ## Calls -/

/-- What a call knows of the identity it works with. -/
def IdentityKnows (view : Database) : CallProc → Prop
  | .predictLocked ref _ _ => Registered view ref.sourceSystem ref.paymentAttemptId
  | .decideLocked ctx | .decideAdmit ctx _ =>
      Registered view ctx.ref.sourceSystem ctx.ref.paymentAttemptId ∧
        ∀ p, ctx.prediction = some p → p.predictionId.paymentAttemptId = ctx.ref.paymentAttemptId
  | .create d _ _ => d.Named
  | .execute _ _ (.running cmd) => ∃ c ∈ view.commands, cmd.SamePayload c
  | .returned (.decision d) => d.Named
  | _ => True

section Calls
variable {model : FailurePredictionModel} {policy : InterventionPolicy} {input : CallInput}
  {reads : ℕ → Database} {now view view' : Database} {p : CallProc} {o : CallOutcome}

theorem IdentityKnows.mono (h : IdentityKnows view p) (hlater : Leads view view') :
    IdentityKnows view' p := by
  cases p with
  | predictLocked ref t inputs => exact Registered.mono h hlater.registry
  | decideLocked ctx => exact ⟨h.1.mono hlater.registry, h.2⟩
  | decideAdmit ctx verdict => exact ⟨h.1.mono hlater.registry, h.2⟩
  | execute id t q =>
      cases q with
      | running cmd =>
          obtain ⟨c, hc, hsame⟩ := h
          obtain ⟨c', hc', hsame'⟩ := hlater.rows.commands c hc
          exact ⟨c', hc', hsame.trans hsame'⟩
      | _ => exact h
  | returned result => cases result <;> exact h
  | _ => exact h

theorem orchestratePrediction_registered {r : Reads} {ref : AttemptRef} {t : Time}
    {res : FailurePrediction ⊕ (PredictionStatus × Option FeatureSnapshot)}
    (h : orchestratePrediction model r ref t = .ok res) :
    Registered (r.db 0) ref.sourceSystem ref.paymentAttemptId := by
  unfold orchestratePrediction at h
  cases hreq : (r.db 0).require ref with
  | error e => simp [hreq, bind, Except.bind] at h
  | ok row => exact registered_of_require hreq

theorem createCommand_registered {r : Reads} {d : InterventionDecision} {e : ℤ} {t : Time}
    {res : InterventionCommand ⊕ InterventionCommand} (h : createCommand r d e t = .ok res) :
    Registered (r.db 0) d.sourceSystem d.paymentAttemptId := by
  unfold createCommand at h
  simp only [bind, Except.bind, throw, throwThe, MonadExceptOf.throw, pure, Except.pure] at h
  split at h
  · cases h
  · split at h
    · split at h
      · cases h
      · split at h
        · cases h
        · exact registered_of_requireKey ‹_›
    · cases h

/-- The prediction a call decides on is of its attempt. -/
theorem decideUpstream_prediction {r : Reads} {ref : AttemptRef} {t : Time}
    {ctx : DecisionContext} (h : decideUpstream policy r ref t = .ok (.inr ctx))
    {q : FailurePrediction} (hq : ctx.prediction = some q) :
    q ∈ (r.db 3).predictions ∧ q.paymentAttemptId = ref.paymentAttemptId := by
  unfold decideUpstream decisionContext at h
  cases hreq : (r.db 0).require ref with
  | error e => simp [hreq, bind, Except.bind] at h
  | ok row =>
      simp only [hreq, bind, Except.bind, pure, Except.pure] at h
      split at h
      · cases h
      · cases h
        have hmem := (List.mem_filter.mp (Table.latestBy_mem hq)).1
        unfold attemptPredictions at hmem
        split at hmem
        · obtain ⟨hrow, hkey⟩ := List.mem_filter.mp hmem
          exact ⟨hrow, (of_decide_eq_true hkey).1⟩
        · cases hmem

/-- A new decision is of the attempt of its context. -/
theorem newDecision_identified {ctx : DecisionContext}
    (h : Registered view ctx.ref.sourceSystem ctx.ref.paymentAttemptId)
    (hprediction : ∀ q, ctx.prediction = some q →
      q.predictionId.paymentAttemptId = ctx.ref.paymentAttemptId) (db : Database)
    (verdict : Verdict) : Identified view (.appendDecision (newDecision policy db ctx verdict)) := by
  refine ⟨rfl, h, fun id hid => ?_⟩
  obtain ⟨q, hq, rfl⟩ := Option.map_eq_some_iff.mp hid
  exact hprediction q hq

/-- The step writes identified rows, and leads to a call that knows its identity. -/
def IdentifiedOutcome (view : Database) : CallOutcome → Prop
  | .write ws next => (∀ w ∈ ws, Identified (ws.foldl Database.apply view) w) ∧
      IdentityKnows (ws.foldl Database.apply view) next
  | .lock _ next | .call _ next => IdentityKnows view next
  | .commit _ | .rollback _ => True

/-- A call writes identified rows, and goes on knowing whose attempt it works on. -/
theorem CallStepped.identified (h : CallStepped model policy input reads now p o)
    (hknows : IdentityKnows view p) (hrows : Identities view)
    (hreads : ∀ k, Leads (reads k) view) : IdentifiedOutcome view o := by
  cases h with
  | predictStored => exact ⟨by simp, trivial⟩
  | predictLock hres => exact (orchestratePrediction_registered hres).mono (hreads 0).registry
  | predicted =>
      refine ⟨?_, trivial⟩
      rw [List.forall_mem_singleton]
      exact ⟨rfl, Registered.mono hknows (Leads.foldl _ _).registry⟩
  | @decideStored ref t d hres =>
      refine ⟨by simp, ?_⟩
      rcases decideUpstream_spec hres with ⟨d', heq, hd⟩ | ⟨ctx, heq, -⟩
      · cases heq
        exact (hrows.decisions d ((hreads 16).rows.decisions hd)).1
      · cases heq
  | @decideLock ref t ctx hres =>
      obtain ⟨hregistered, href⟩ := decideUpstream_registered hres
      refine ⟨href ▸ hregistered.mono (hreads 0).registry, fun q hq => ?_⟩
      obtain ⟨hrow, hkey⟩ := decideUpstream_prediction hres hq
      rw [(hrows.predictions q ((hreads 3).rows.predictions hrow)).1, href]
      exact hkey
  | @lockedStored ctx d hres =>
      refine ⟨by simp, ?_⟩
      rcases decideLocked_spec policy (input.reads reads) ctx with
        ⟨d', hs, hd⟩ | ⟨verdict, hs, -⟩ | ⟨_, hs, -⟩
      · obtain rfl : d = d' := by simpa [hres] using hs
        exact (hrows.decisions d ((hreads 0).rows.decisions hd)).1
      · simp [hres] at hs
      · simp [hres] at hs
  | @lockedAppend ctx d hres =>
      obtain ⟨-, verdict, -, rfl⟩ := decideLocked_append hres
      refine ⟨?_, rfl⟩
      rw [List.forall_mem_singleton]
      exact (newDecision_identified hknows.1 hknows.2 _ _).mono (.foldl _ _)
  | lockedAct => exact hknows
  | @admitted ctx verdict =>
      refine ⟨?_, rfl⟩
      rw [List.forall_mem_singleton]
      exact (newDecision_identified hknows.1 hknows.2 _ _).mono (.foldl _ _)
  | createExisting => exact ⟨by simp, trivial⟩
  | @created d e t c hres =>
      have hregistered := (createCommand_registered hres).mono (hreads 0).registry
      obtain ⟨-, route, -, ⟨_, heq, -⟩ | ⟨_, heq, -⟩ | heq⟩ := createCommand_spec hres
      · cases heq
      · cases heq
      · obtain rfl := Sum.inr.inj heq
        refine ⟨?_, trivial⟩
        rw [List.forall_mem_singleton]
        refine ⟨rfl, ?_, hregistered.mono (Leads.foldl _ _).registry⟩
        exact congrArg DecisionId.paymentAttemptId hknows
  | executeDone => exact ⟨by simp, trivial⟩
  | @executing id t q o' hq hstep =>
      cases q with
      | start => cases hstep; trivial
      | check =>
          simp only [executeStep] at hstep
          cases hc : executeCheck (input.reads reads) id t with
          | error e => simp [hc, Except.map] at hstep
          | ok q' =>
              simp only [hc, Except.map, Except.ok.injEq] at hstep
              subst hstep
              refine ⟨by simp, ?_⟩
              obtain ⟨c, -, ⟨-, rfl⟩ | ⟨-, -, rfl⟩ | ⟨-, -, -, rfl⟩ | ⟨-, -, -, rfl⟩⟩ :=
                executeCheck_spec hc <;> trivial
      | close target reason => cases hstep; exact ⟨by simp [Identified], trivial⟩
      | claim => cases hstep; refine ⟨by simp [Identified], ?_⟩; split <;> trivial
      | dispatch =>
          simp only [executeStep] at hstep
          split at hstep
          · cases hstep
          · cases hstep
            exact ((hreads 0).getCommandById ‹_›).2
      | running cmd =>
          simp only [executeStep] at hstep
          split at hstep
          · cases hstep
          · cases hstep
            obtain ⟨c, hc, hsame⟩ := hknows
            refine ⟨?_, trivial⟩
            rw [List.forall_mem_singleton]
            exact ⟨c, hc, hsame.commandId, hsame.sourceSystem⟩
      | finalize res => cases hstep; exact ⟨by simp [Identified], trivial⟩
      | done => exact absurd rfl hq
  | @observed id asOf row hobs =>
      obtain ⟨cmd, _, hget, -, rfl⟩ := observe_spec hobs
      obtain ⟨rfl, c, hc, hsame⟩ := (hreads 0).getCommandById hget
      refine ⟨?_, trivial⟩
      rw [List.forall_mem_singleton]
      exact ⟨c, hc, hsame.commandId, hsame.sourceSystem, hsame.paymentAttemptId⟩
  | attributeLock => trivial
  | attributeStored => exact ⟨by simp, trivial⟩
  | @attributed id asOf a hattr =>
      obtain ⟨u, hu, -, rfl⟩ := attributePaymentIntervention_spec hattr
      obtain ⟨hget, -, -, hdecision, -⟩ := readUpstream_spec hu
      obtain ⟨-, c, hc, hsame⟩ := (hreads 4).getCommandById hget
      have hid : u.decision.decisionId = u.command.decisionId := by
        simpa using List.find?_some hdecision
      refine ⟨?_, trivial⟩
      rw [List.forall_mem_singleton]
      exact ⟨c, hc, hsame.commandId, hsame.sourceSystem, hsame.paymentAttemptId,
        hsame.decisionId.trans hid.symm⟩
  | returned => exact ⟨by simp, hknows⟩

end Calls

/-! ## Connections -/

/-- A command is asked for with a decision that is named as `decide` names it. -/
def TransactionInput.NamesDecision (input : TransactionInput) : Prop :=
  match input.request with
  | .createCommand d _ _ => d.Named
  | _ => True

instance (input : TransactionInput) : Decidable input.NamesDecision := by
  unfold TransactionInput.NamesDecision
  cases input.request <;> infer_instance

/-- Connections write identified rows. -/
theorem configuredProgram_identified {ι : Type} (config : ι → ServiceConfig) :
    (configuredProgram config).Provenance Leads Identities Identified
      (fun _ _ input => input.NamesDecision)
      (fun view _ p => callKnows config (fun _ => IdentityKnows) view p) where
  grows := by
    refine Leads.grows rfl rfl fun {db x ws ps} harr => ?_
    obtain ⟨rfl, -⟩ := configuredProgram_arrive harr
    cases x <;> rfl
  lasting hlater h := h.mono hlater
  collect h hws := h.foldl hws
  knowing {db db' ws p} hlater h := by
    obtain ⟨i, _ | q⟩ := p
    · trivial
    · exact IdentityKnows.mono h hlater
  arrive {db x ws ps} harr := by
    obtain ⟨rfl, rfl⟩ := configuredProgram_arrive harr
    cases x with
    | event row =>
        exact ⟨by simp [ConfiguredArrival.effect, Identified],
          by simp [ConfiguredArrival.effect]⟩
    | connect is =>
        refine ⟨by simp [ConfiguredArrival.effect], fun p hp db' => ?_⟩
        obtain ⟨i, -, rfl⟩ := List.mem_map.mp hp
        trivial
  error _ _ := trivial
  step {db s input o} hrows hreads hknows hg ho := by
    obtain ⟨⟨i, q⟩, pending, locks, views⟩ := s
    obtain ⟨o', rfl, hstep⟩ := configuredStepped ho
    cases hstep with
    | requested hproc =>
        cases hr : input.request with
        | createCommand d e t =>
            have hnamed : d.Named := by simpa [TransactionInput.NamesDecision, hr] using hg
            exact ⟨by simp, hnamed⟩
        | commit => exact fun _ => trivial
        | rollback => exact fun _ => trivial
        | registerAttempt | storeAnalytics => exact ⟨by simp [Identified], trivial⟩
        | _ => exact ⟨by simp, trivial⟩
    | returned => exact ⟨by simp, trivial⟩
    | raised => exact fun _ => trivial
    | @called p o'' hproc hp hcall =>
        obtain rfl : q = .calling p := hproc
        have hcalled := hcall.identified hknows hrows hreads
        cases o'' with
        | write ws next =>
            simp only [Outcome.map, Program.view_wrote]
            exact hcalled
        | lock | call => exact hcalled
        | commit next => exact absurd rfl (hcall.inside.1 next)
        | rollback next => exact absurd rfl (hcall.inside.2 next)

/-! ## The chain -/

/-- Every row carries the provider its attempt is registered under, and rows linked by a
prediction, decision or command id carry one attempt and one provider. An execution attempt
names its attempt by its command. -/
structure IdentityChain (db : Database) : Prop where
  predictions : ∀ p ∈ db.predictions, Registered db p.sourceSystem p.paymentAttemptId
  decisions : ∀ d ∈ db.decisions, Registered db d.sourceSystem d.paymentAttemptId
  commands : ∀ c ∈ db.commands, Registered db c.sourceSystem c.paymentAttemptId
  executionAttempts : ∀ a ∈ db.executionAttempts, ∃ c ∈ db.commands,
    c.commandId = a.commandId ∧ Registered db a.sourceSystem c.paymentAttemptId
  observations : ∀ o ∈ db.observations, Registered db o.sourceSystem o.paymentAttemptId
  attributions : ∀ a ∈ db.attributions, Registered db a.sourceSystem a.paymentAttemptId
  decisionPrediction : ∀ d ∈ db.decisions, ∀ p ∈ db.predictions,
    d.stage5PredictionId = some p.predictionId →
      d.paymentAttemptId = p.paymentAttemptId ∧ d.sourceSystem = p.sourceSystem
  commandDecision : ∀ c ∈ db.commands, ∀ d ∈ db.decisions, c.decisionId = d.decisionId →
    c.paymentAttemptId = d.paymentAttemptId ∧ c.sourceSystem = d.sourceSystem
  attemptCommand : ∀ a ∈ db.executionAttempts, ∀ c ∈ db.commands, a.commandId = c.commandId →
    a.sourceSystem = c.sourceSystem
  observationCommand : ∀ o ∈ db.observations, ∀ c ∈ db.commands, o.commandId = c.commandId →
    o.paymentAttemptId = c.paymentAttemptId ∧ o.sourceSystem = c.sourceSystem
  attributionCommand : ∀ a ∈ db.attributions, ∀ c ∈ db.commands, a.commandId = c.commandId →
    a.paymentAttemptId = c.paymentAttemptId ∧ a.sourceSystem = c.sourceSystem
  attributionDecision : ∀ a ∈ db.attributions, ∀ d ∈ db.decisions, a.decisionId = d.decisionId →
    a.paymentAttemptId = d.paymentAttemptId ∧ a.sourceSystem = d.sourceSystem

section Chain
variable {db : Database}

/-- Rows of one attempt that is registered for both are of one provider. -/
theorem Registered.same {source source' key key' : String} (h : Registered db source key)
    (h' : Registered db source' key') (hkey : key = key') : key = key' ∧ source = source' := by
  subst hkey
  exact ⟨rfl, h.source_eq h'⟩

/-- A command's id leads to its attempt. -/
theorem Identities.key (h : Identities db) {c : InterventionCommand} (hc : c ∈ db.commands) :
    c.paymentAttemptId = c.commandId.decisionId.paymentAttemptId := by
  obtain ⟨hid, hkey, -⟩ := h.commands c hc
  rw [hid, hkey]

/-- Rows that copy the identity of the row before them form a chain. -/
theorem Identities.chain (h : Identities db) : IdentityChain db := by
  have hobservation : ∀ o ∈ db.observations, Registered db o.sourceSystem o.paymentAttemptId ∧
      o.paymentAttemptId = o.commandId.decisionId.paymentAttemptId := by
    intro o ho
    obtain ⟨c, hc, hid, hsource, hkey⟩ := h.observations o ho
    exact ⟨hsource ▸ hkey ▸ (h.commands c hc).2.2, by rw [← hkey, ← hid, h.key hc]⟩
  have hattribution : ∀ a ∈ db.attributions, Registered db a.sourceSystem a.paymentAttemptId ∧
      a.paymentAttemptId = a.commandId.decisionId.paymentAttemptId ∧
      a.paymentAttemptId = a.decisionId.paymentAttemptId := by
    intro a ha
    obtain ⟨c, hc, hid, hsource, hkey, hdecision⟩ := h.attributions a ha
    exact ⟨hsource ▸ hkey ▸ (h.commands c hc).2.2, by rw [← hkey, ← hid, h.key hc],
      by rw [← hkey, ← hdecision, (h.commands c hc).2.1]⟩
  have hname : ∀ d ∈ db.decisions, d.decisionId.paymentAttemptId = d.paymentAttemptId :=
    fun d hd => congrArg DecisionId.paymentAttemptId (h.decisions d hd).1
  exact
    { predictions := fun p hp => (h.predictions p hp).2
      decisions := fun d hd => (h.decisions d hd).2.1
      commands := fun c hc => (h.commands c hc).2.2
      executionAttempts := fun a ha => by
        obtain ⟨c, hc, hid, hsource⟩ := h.executionAttempts a ha
        exact ⟨c, hc, hid, hsource ▸ (h.commands c hc).2.2⟩
      observations := fun o ho => (hobservation o ho).1
      attributions := fun a ha => (hattribution a ha).1
      decisionPrediction := fun d hd p hp hid => by
        obtain ⟨-, hregistered, hlink⟩ := h.decisions d hd
        obtain ⟨hpid, hp'⟩ := h.predictions p hp
        refine hregistered.same hp' ?_
        rw [← hlink _ hid, hpid]
      commandDecision := fun c hc d hd hid => by
        refine (h.commands c hc).2.2.same (h.decisions d hd).2.1 ?_
        rw [← (h.commands c hc).2.1, hid, hname d hd]
      attemptCommand := fun a ha c hc hid => by
        obtain ⟨c', hc', hid', hsource⟩ := h.executionAttempts a ha
        refine hsource ▸ ((h.commands c' hc').2.2.same (h.commands c hc).2.2 ?_).2
        rw [h.key hc', h.key hc, hid', hid]
      observationCommand := fun o ho c hc hid => by
        refine (hobservation o ho).1.same (h.commands c hc).2.2 ?_
        rw [(hobservation o ho).2, h.key hc, hid]
      attributionCommand := fun a ha c hc hid => by
        refine (hattribution a ha).1.same (h.commands c hc).2.2 ?_
        rw [(hattribution a ha).2.1, h.key hc, hid]
      attributionDecision := fun a ha d hd hid => by
        refine (hattribution a ha).1.same (h.decisions d hd).2.1 ?_
        rw [(hattribution a ha).2.2, hid, hname d hd] }

end Chain

end RevenueRecovery
