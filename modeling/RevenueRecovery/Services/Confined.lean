import RevenueRecovery.Services.Identity
import RevenueRecovery.Services.Isolation

/-!
# Calls stay with their provider

A call for an attempt of PayPal reads and writes rows of PayPal only, and a call for another
attempt rows of others. A call for PayPal never asks for the admission of an `ACT` decision:
the policy's costs are in a currency that PayPal events are not in.

## Main definitions
* `CallProc.Confined` : the call is for an attempt of one provider.
-/
namespace RevenueRecovery

open Transaction

section Confined
variable (policy : InterventionPolicy) (paypal : Bool)

/-- The facts are of an attempt of the provider. -/
structure DecisionContext.Confined (ctx : DecisionContext) : Prop where
  source : isPaypalSource ctx.ref.sourceSystem = paypal
  prediction : ∀ p, ctx.prediction = some p →
    hasPaypalPrefix p.predictionId.paymentAttemptId = paypal
  currency : paypal = true → ctx.currency ≠ policy.costCurrency

/-- The command under execution is of the provider. -/
def ExecuteProc.Confined : ExecuteProc → Prop
  | .running cmd => (Write.insertCommand cmd).Filed policy paypal
  | _ => True

/-- What the call returned is a row of the provider. -/
def CallResult.Confined : CallResult → Prop
  | .decision d => (Write.appendDecision d).Filed policy paypal
  | .command c => (Write.insertCommand c).Filed policy paypal
  | _ => True

/-- The call is for an attempt of the provider. -/
def CallProc.Confined : CallProc → Prop
  | .predict ref _ | .predictLocked ref _ _ | .decide ref _ =>
      isPaypalSource ref.sourceSystem = paypal
  | .decideLocked ctx => ctx.Confined policy paypal
  | .decideAdmit ctx _ => ctx.Confined policy paypal ∧ paypal = false
  | .create d _ _ => (Write.appendDecision d).Filed policy paypal
  | .execute id _ q => hasPaypalPrefix id.paymentAttemptId = paypal ∧ q.Confined policy paypal
  | .observe id _ | .attributePayment id _ | .attributeLocked id _ =>
      hasPaypalPrefix id.paymentAttemptId = paypal
  | .returned result => result.Confined policy paypal

end Confined

section Rows
variable {policy : InterventionPolicy} {paypal : Bool} {r : Reads} {db : Database}
  {ref : AttemptRef} {ctx : DecisionContext} {d : InterventionDecision}

theorem filed_of_mem_decisions (hdb : FiledRows policy db) (hmem : d ∈ db.decisions)
    (hkey : hasPaypalPrefix d.paymentAttemptId = paypal) :
    (Write.appendDecision d).Filed policy paypal := by
  obtain ⟨b, hfiled⟩ := hdb.decisions d hmem
  obtain rfl : b = paypal := (hfiled.1.2 d.paymentAttemptId (by simp)).symm.trans hkey
  exact hfiled

theorem newPrediction_filed (hsource : isPaypalSource ref.sourceSystem = paypal)
    (model : FailurePredictionModel) (db : Database) (t : Time)
    (inputs : PredictionStatus × Option FeatureSnapshot) :
    (Write.appendPrediction (newPrediction model db ref t inputs)).Filed policy paypal := by
  have hown := AttemptRef.own hsource
  exact ⟨hsource, by simp [newPrediction, hown.key]⟩

theorem newDecision_filed (hctx : ctx.Confined policy paypal) {verdict : Verdict}
    (hact : paypal = true → verdict.decisionType ≠ .act) (db : Database) :
    (Write.appendDecision (newDecision policy db ctx verdict)).Filed policy paypal := by
  have hown := AttemptRef.own hctx.source
  refine ⟨⟨hctx.source, by simp [newDecision, hown.key]⟩, fun id hid => ?_, hact⟩
  obtain ⟨p, hp, rfl⟩ := Option.map_eq_some_iff.mp hid
  exact hctx.prediction p hp

theorem newCommand_filed (hd : (Write.appendDecision d).Filed policy paypal)
    (route : InterventionRouteKey) (expiresInSeconds : ℤ) (t : Time) :
    (Write.insertCommand (newCommand d route expiresInSeconds t)).Filed policy paypal := by
  have hkey := hd.1.2 d.paymentAttemptId (by simp)
  have hid := hd.1.2 d.decisionId.paymentAttemptId (by simp)
  exact ⟨hd.1.1, by simp [newCommand, CommandId.paymentAttemptId, hkey, hid]⟩

section OfCommand
variable {cmd : InterventionCommand} (hcmd : (Write.insertCommand cmd).Filed policy paypal)
include hcmd

theorem newExecutionAttempt_filed (db : Database) (t : Time) (result : ExecutionResult) :
    (Write.insertExecutionAttempt (newExecutionAttempt db cmd t result)).Filed policy paypal := by
  have hid := hcmd.2 cmd.commandId.paymentAttemptId (by simp)
  exact ⟨hcmd.1, by simp [newExecutionAttempt, hid]⟩

theorem newObservation_filed (r : Reads) (asOf : Time) :
    (Write.insertObservation (newObservation r cmd asOf)).Filed policy paypal := by
  have hid := hcmd.2 cmd.commandId.paymentAttemptId (by simp)
  exact ⟨hcmd.1, by simp [newObservation, hid]⟩

end OfCommand

theorem newAttribution_filed {u : Upstream}
    (hcmd : (Write.insertCommand u.command).Filed policy paypal) (version : ℕ) (asOf : Time) :
    (Write.appendAttribution (u.newAttribution version asOf)).Filed policy paypal := by
  have hid := hcmd.2 u.command.commandId.paymentAttemptId (by simp)
  exact ⟨hcmd.1, by simp [Upstream.newAttribution, hid]⟩

/-- The trigger event a decision is made on is of the attempt's provider. -/
theorem decideUpstream_auth {t : Time} (h : decideUpstream policy r ref t = .ok (.inr ctx)) :
    ctx.ref = ref ∧ ctx.auth = getPaymentEventById (r.shift 1) ref.paymentAttemptId t := by
  unfold decideUpstream decisionContext at h
  cases hreq : (r.db 0).require ref with
  | error e => simp [hreq, bind, Except.bind] at h
  | ok row =>
      simp only [hreq, bind, Except.bind, pure, Except.pure] at h
      split at h
      · cases h
      · cases h
        exact ⟨rfl, rfl⟩

/-- The facts a call decides on are of its attempt's provider. -/
theorem decideUpstream_confined (hcost : policy.costCurrency ≠ "")
    (hdb : ∀ k, FiledRows policy (r.db k)) (hsource : isPaypalSource ref.sourceSystem = paypal)
    {t : Time} (h : decideUpstream policy r ref t = .ok (.inr ctx)) :
    ctx.Confined policy paypal := by
  have hown := AttemptRef.own hsource
  obtain ⟨href, hauth⟩ := decideUpstream_auth h
  refine ⟨href ▸ hsource, fun p hp => ?_, ?_⟩
  · obtain ⟨hmem, hkey⟩ := decideUpstream_prediction h hp
    have hfiled := FiledUnder.own p.paymentAttemptId ((hdb 3).predictions p hmem) (by simp)
      (hkey ▸ hown.key)
    exact hfiled.2 _ (by simp)
  · rintro rfl
    unfold DecisionContext.currency
    cases hevent : getPaymentEventById (r.shift 1) ref.paymentAttemptId t with
    | none =>
        rw [hauth, hevent]
        exact hcost.symm
    | some e =>
        obtain ⟨hmem, hpaypal⟩ := isPaypal_of_getPaymentEventById hevent
        obtain ⟨b, hclass, hcurrency⟩ := (hdb (1 + 0)).events e hmem
        rw [hauth, hevent]
        exact hcurrency (hclass.symm.trans (hpaypal.trans hown.order))

/-- Under the version lock, a decision of the attempt is returned or appended, and only
attempts of others than PayPal ask for the admission of an `ACT` verdict. -/
theorem decideLocked_confined (hdb : ∀ k, FiledRows policy (r.db k))
    (hctx : ctx.Confined policy paypal) :
    (∀ d, decideLocked policy r ctx = .stored d ∨ decideLocked policy r ctx = .append d →
      (Write.appendDecision d).Filed policy paypal) ∧
      ∀ verdict, decideLocked policy r ctx = .tentativeAct verdict → paypal = false := by
  have hown := AttemptRef.own hctx.source
  refine ⟨fun d hd => ?_, fun verdict hact => ?_⟩
  · rcases hd with hd | hd
    · rcases decideLocked_spec policy r ctx with ⟨d', hs, hmem⟩ | ⟨_, hs, -⟩ | ⟨_, hs, -⟩
      · obtain rfl : d' = d := by simpa [hs] using hd
        refine filed_of_mem_decisions (hdb 0) hmem ?_
        rw [(decideLocked_decidedFor (.inl hs)).1]
        exact hown.key
      · simp [hs] at hd
      · simp [hs] at hd
    · rcases decideLocked_spec policy r ctx with ⟨d', hs, -⟩ | ⟨verdict, hs, hact⟩ | ⟨_, hs, -⟩
      · simp [hs] at hd
      · obtain rfl : _ = d := by simpa [hs] using hd
        exact newDecision_filed hctx (fun _ => hact) _
      · simp [hs] at hd
  · by_contra hpaypal
    unfold decideLocked at hact
    split at hact
    · cases hact
    · dsimp only at hact
      split at hact
      · rename_i hverdict
        exact tentativeVerdict_ne_act (hctx.currency (by simpa using hpaypal)) hverdict
      · cases hact

end Rows

section Steps
variable {model : FailurePredictionModel} {policy : InterventionPolicy} {paypal : Bool}
  {input : CallInput} {db : ℕ → Database} {now : Database} {p : CallProc} {o : CallOutcome}

/-- The step writes rows of the provider, and no events. -/
def WritesConfined (policy : InterventionPolicy) (paypal : Bool) {Proc : Type}
    (o : Outcome Write LockKey InterventionCommand Proc) : Prop :=
  ∀ ws next, o = .write ws next → ∀ w ∈ ws, w.Filed policy paypal ∧ w.event? = none

namespace WritesConfined
variable {Proc Proc' : Type} {next : Proc}

theorem nil : WritesConfined policy paypal
    (.write [] next : Outcome Write LockKey InterventionCommand Proc) := by
  intro ws next' heq w hw
  cases heq
  cases hw

theorem lock {key : LockKey} : WritesConfined policy paypal
    (.lock key next : Outcome Write LockKey InterventionCommand Proc) := by
  intro ws next' heq
  cases heq

theorem call {cmd : InterventionCommand} : WritesConfined policy paypal
    (.call cmd next : Outcome Write LockKey InterventionCommand Proc) := by
  intro ws next' heq
  cases heq

theorem commit : WritesConfined policy paypal
    (.commit next : Outcome Write LockKey InterventionCommand Proc) := by
  intro ws next' heq
  cases heq

theorem rollback : WritesConfined policy paypal
    (.rollback next : Outcome Write LockKey InterventionCommand Proc) := by
  intro ws next' heq
  cases heq

theorem single {w : Write} (hw : w.Filed policy paypal) (hevent : w.event? = none) :
    WritesConfined policy paypal
      (.write [w] next : Outcome Write LockKey InterventionCommand Proc) := by
  intro ws next' heq w' hw'
  cases heq
  obtain rfl := List.mem_singleton.mp hw'
  exact ⟨hw, hevent⟩

theorem map {o : Outcome Write LockKey InterventionCommand Proc} (h : WritesConfined policy paypal o)
    (f : Proc → Proc') : WritesConfined policy paypal (o.map f) := by
  intro ws next heq
  cases o with
  | write vs next' =>
      obtain ⟨rfl, -⟩ := Outcome.write.inj heq
      exact h vs next' rfl
  | _ => cases heq

end WritesConfined

/-- The execution of a command goes on for it, and writes its rows. -/
theorem executeStep_confined {id : CommandId} {t : Time} {r : Reads} {result : Option ExecutionResult}
    {q : ExecuteProc} {o : Outcome Write LockKey InterventionCommand ExecuteProc}
    (hdb : ∀ k, FiledRows policy (r.db k)) (hid : hasPaypalPrefix id.paymentAttemptId = paypal)
    (hq : q.Confined policy paypal) (h : executeStep id t r now result q = .ok o) :
    o.next.Confined policy paypal ∧ WritesConfined policy paypal o := by
  cases q with
  | start =>
      cases h
      exact ⟨trivial, .lock⟩
  | check =>
      simp only [executeStep] at h
      cases hc : executeCheck r id t with
      | error e => simp [hc, Except.map] at h
      | ok next =>
          simp only [hc, Except.map, Except.ok.injEq] at h
          subst h
          refine ⟨?_, .nil⟩
          obtain ⟨c, -, ⟨-, rfl⟩ | ⟨-, -, rfl⟩ | ⟨-, -, -, rfl⟩ | ⟨-, -, -, rfl⟩⟩ :=
            executeCheck_spec hc <;> trivial
  | close target reason =>
      cases h
      exact ⟨trivial, .single hid rfl⟩
  | claim =>
      cases h
      refine ⟨?_, .single hid rfl⟩
      simp only [Outcome.next]
      split <;> trivial
  | dispatch =>
      simp only [executeStep] at h
      cases hcmd : (r.db 0).getCommandById id with
      | none => simp [hcmd] at h
      | some cmd =>
          simp only [hcmd, Except.ok.injEq] at h
          subst h
          exact ⟨filed_of_getCommandById (hdb 0) hid hcmd, .call⟩
  | running cmd =>
      simp only [executeStep] at h
      cases result with
      | none => cases h
      | some res =>
          cases h
          exact ⟨trivial, .single (newExecutionAttempt_filed hq ..) rfl⟩
  | finalize res =>
      cases h
      exact ⟨trivial, .single hid rfl⟩
  | done =>
      cases h
      exact ⟨trivial, .nil⟩

/-- A call goes on for its attempt, and writes rows of its provider. -/
theorem CallStepped.confined (hcost : policy.costCurrency ≠ "") (hdb : ∀ k, FiledRows policy (db k))
    (hp : p.Confined policy paypal) (h : CallStepped model policy input db now p o) :
    o.next.Confined policy paypal ∧ WritesConfined policy paypal o := by
  cases h with
  | predictStored => exact ⟨trivial, .nil⟩
  | predictLock => exact ⟨hp, .lock⟩
  | predicted => exact ⟨trivial, .single (newPrediction_filed hp ..) rfl⟩
  | @decideStored ref t d hd =>
      have hown := AttemptRef.own hp
      refine ⟨?_, .nil⟩
      rcases decideUpstream_spec hd with ⟨d', hres, hmem⟩ | ⟨_, hres, -⟩
      · cases hres
        refine filed_of_mem_decisions (hdb 16) hmem ?_
        rw [(decideUpstream_decidedFor hd).1]
        exact hown.key
      · cases hres
  | decideLock hctx => exact ⟨decideUpstream_confined hcost hdb hp hctx, .lock⟩
  | lockedStored hd => exact ⟨(decideLocked_confined hdb hp).1 _ (.inl hd), .nil⟩
  | lockedAppend hd =>
      have hfiled := (decideLocked_confined hdb hp).1 _ (.inr hd)
      exact ⟨hfiled, .single hfiled rfl⟩
  | lockedAct hd => exact ⟨⟨hp, (decideLocked_confined hdb hp).2 _ hd⟩, .lock⟩
  | @admitted ctx verdict =>
      obtain ⟨hctx, rfl⟩ := hp
      have hfiled : (Write.appendDecision
          (decideAdmitted policy (input.reads db) ctx verdict)).Filed policy false :=
        newDecision_filed hctx (by simp) _
      exact ⟨hfiled, .single hfiled rfl⟩
  | @createExisting d e t c hc =>
      refine ⟨?_, .nil⟩
      obtain ⟨-, route, -, ⟨c', hres, hmem, hid, -⟩ | ⟨c', hres, hmem, hkey, -⟩ | hres⟩ :=
        createCommand_spec hc
      · cases hres
        exact FiledUnder.own c.decisionId.paymentAttemptId ((hdb 1).commands c hmem) (by simp)
          (hid ▸ hp.1.2 _ (by simp))
      · cases hres
        exact FiledUnder.own c.paymentAttemptId ((hdb 2).commands c hmem) (by simp)
          (hkey ▸ hp.1.2 _ (by simp))
      · cases hres
  | @created d e t c hc =>
      obtain ⟨-, route, -, ⟨_, hres, -⟩ | ⟨_, hres, -⟩ | hres⟩ := createCommand_spec hc
      · cases hres
      · cases hres
      · cases hres
        have hfiled : (Write.insertCommand (newCommand d route e t)).Filed policy paypal :=
          newCommand_filed hp ..
        exact ⟨hfiled, .single hfiled rfl⟩
  | executeDone => exact ⟨trivial, .nil⟩
  | @executing id t q o' hq hstep =>
      obtain ⟨hnext, hwrites⟩ := executeStep_confined hdb hp.1 hp.2 hstep
      refine ⟨?_, hwrites.map _⟩
      cases o' <;> exact ⟨hp.1, hnext⟩
  | @observed id asOf row hrow =>
      obtain ⟨cmd, _, hcmd, -, rfl⟩ := observe_spec hrow
      have hfiled := filed_of_getCommandById (hdb 0) hp hcmd
      exact ⟨trivial, .single (newObservation_filed hfiled ..) rfl⟩
  | attributeLock => exact ⟨hp, .lock⟩
  | attributeStored => exact ⟨trivial, .nil⟩
  | @attributed id asOf a ha =>
      obtain ⟨u, hu, -, rfl⟩ := attributePaymentIntervention_spec ha
      have hfiled := filed_of_getCommandById (hdb (4 + 0)) hp (readUpstream_spec hu).1
      exact ⟨trivial, .single (newAttribution_filed hfiled ..) rfl⟩
  | returned => exact ⟨hp, .nil⟩

/-- The execution of a command does the same on the rows of its provider. -/
theorem executeStep_ofProvider {id : CommandId} {t : Time} {r : Reads}
    {result : Option ExecutionResult} {q : ExecuteProc} (hdb : ∀ k, FiledRows policy (r.db k))
    (hnow : FiledRows policy now) (hid : hasPaypalPrefix id.paymentAttemptId = paypal)
    (hq : q.Confined policy paypal) :
    executeStep id t (r.ofProvider paypal) (now.ofProvider paypal) result q =
      executeStep id t r now result q := by
  cases q with
  | check => simp only [executeStep, executeCheck_ofProvider hdb hid]
  | claim => simp only [executeStep, statusIs_ofProvider hnow hid]
  | dispatch => simp only [executeStep, Reads.db_ofProvider, getCommandById_ofProvider (hdb 0) hid]
  | running cmd => simp only [executeStep, Reads.db_ofProvider,
      newExecutionAttempt_ofProvider (hdb 0) (hq.2 cmd.commandId.paymentAttemptId (by simp))]
  | _ => rfl

/-- A call does the same on the rows of its provider as on all rows. -/
theorem callStep_ofProvider (hdb : ∀ k, FiledRows policy (db k)) (hnow : FiledRows policy now)
    (hp : p.Confined policy paypal) :
    callStep model policy input (fun k => (db k).ofProvider paypal) (now.ofProvider paypal) p =
      callStep model policy input db now p := by
  have hreads : input.reads (fun k => (db k).ofProvider paypal) =
      (input.reads db).ofProvider paypal := rfl
  cases p with
  | predict ref t =>
      simp only [callStep, hreads]
      rw [orchestratePrediction_ofProvider hdb hp]
  | predictLocked ref t inputs => simp only [callStep, newPrediction_ofProvider hp]
  | decide ref t =>
      simp only [callStep, hreads]
      rw [decideUpstream_ofProvider hdb hp]
  | decideLocked ctx => simp only [callStep, hreads, decideLocked_ofProvider hp.source]
  | decideAdmit ctx verdict =>
      obtain ⟨hctx, rfl⟩ := hp
      simp only [callStep, hreads]
      rw [decideAdmitted_ofProvider hdb hctx.source]
  | create d e t =>
      simp only [callStep, hreads]
      rw [createCommand_ofProvider hdb hp]
  | execute id t q =>
      have hstep : executeStep id t ((input.reads db).ofProvider paypal) (now.ofProvider paypal)
          input.result q = executeStep id t (input.reads db) now input.result q :=
        executeStep_ofProvider hdb hnow hp.1 hp.2
      cases q <;> simp only [callStep, hreads, hstep]
  | observe id asOf =>
      simp only [callStep, hreads]
      rw [observe_ofProvider hdb hp]
  | attributePayment id asOf => rfl
  | attributeLocked id asOf =>
      simp only [callStep, hreads]
      rw [attributePaymentIntervention_ofProvider hdb hp]
  | returned result => rfl

end Steps

end RevenueRecovery
