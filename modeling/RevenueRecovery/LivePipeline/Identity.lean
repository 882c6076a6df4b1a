import RevenueRecovery.Execution.ObservationLog
import RevenueRecovery.Lib.Beside
import RevenueRecovery.LivePipeline.Run
import RevenueRecovery.Services.Identity

/-!
# The provider of every row

Runs of the live pipeline and transactions of service calls share one store, in any order.
Events of any source may claim one attempt key: the first to register it decides its
provider, and no row of Stages 5-8 says otherwise (`providerIdentity`).

## Main definitions
* `mixedProgram`, `mixedRun` : runs of the live pipeline beside connections.
* `NamesDecisions` : what callers ask commands for.
-/
namespace RevenueRecovery

open Transaction

/-- What a run knows is what its call knows. -/
def LiveProc.IdentityKnows (view : Database) : LiveProc → Prop
  | .trigger _ _ p | .settling _ _ _ _ p => RevenueRecovery.IdentityKnows view p
  | _ => True

section Live
variable {view view' : Database} {p : LiveProc}

theorem LiveProc.IdentityKnows.mono (h : p.IdentityKnows view) (hlater : Leads view view') :
    p.IdentityKnows view' := by
  cases p with
  | trigger e ref q => exact RevenueRecovery.IdentityKnows.mono h hlater
  | settling e id asOf queue q => exact RevenueRecovery.IdentityKnows.mono h hlater
  | _ => exact trivial

theorem LiveProc.identityKnows_of_call? {q : CallProc} {f : CallProc → LiveProc}
    (h : p.call? = some (q, f)) :
    (p.IdentityKnows view ↔ RevenueRecovery.IdentityKnows view q) ∧
      ∀ q' view', (f q').IdentityKnows view' ↔ RevenueRecovery.IdentityKnows view' q' := by
  cases p <;> cases h <;> exact ⟨.rfl, fun _ _ => .rfl⟩

/-- Runs write identified rows. -/
theorem liveProgram_identified (policy : InterventionPolicy) :
    (liveProgram policy).Provenance Leads Identities Identified (fun _ _ _ => True)
      (fun view _ p => p.IdentityKnows view) where
  grows := by
    refine Leads.grows rfl rfl fun {db x ws ps} harr => ?_
    obtain ⟨rfl, -⟩ := liveProgram_arrive harr
    rfl
  lasting hlater h := h.mono hlater
  collect h hws := h.foldl hws
  knowing hlater h := h.mono hlater
  arrive {db e ws ps} harr := by
    obtain ⟨rfl, rfl⟩ := liveProgram_arrive harr
    refine ⟨by simp [Identified], fun p hp db' => ?_⟩
    rcases pipelineRuns_cases hp with ⟨-, rfl⟩ | ⟨-, rfl⟩ <;> trivial
  error db p := by cases p <;> trivial
  step {db s input o} hrows hreads hknows _ ho := by
    cases liveStepped ho with
    | @called p f o' hproc hp hcall =>
        obtain ⟨hiff, hnext⟩ := LiveProc.identityKnows_of_call? hproc
        have hcalled := hcall.identified (hiff.mp hknows) hrows hreads
        cases o' with
        | write ws next =>
            simp only [Outcome.map, Program.view_wrote, hnext]
            exact hcalled
        | lock | call =>
            simp only [Outcome.map, hnext]
            exact hcalled
        | commit next => exact absurd rfl (hcall.inside.1 next)
        | rollback next => exact absurd rfl (hcall.inside.2 next)
    | @triggerReturned e ref result hproc =>
        refine ⟨by simp, ?_⟩
        rw [hproc] at hknows
        cases result with
        | prediction q => simp only [afterTriggerCall]; split <;> trivial
        | decision d => simp only [afterTriggerCall]; split <;> first | exact hknows | trivial
        | _ => trivial
    | @settlingReturned e id asOf queue result hproc =>
        refine ⟨by simp, ?_⟩
        cases result <;> trivial
    | failed => exact fun _ => trivial
    | analyticsStored => exact fun _ => trivial
    | finish => exact fun _ => trivial
    | register => exact ⟨by simp [Identified], trivial⟩
    | analytics => exact ⟨by simp [Identified], trivial⟩
    | _ => exact ⟨by simp, trivial⟩

end Live

/-! ## Runs beside connections -/

section Mixed
variable {ι : Type} (policy : InterventionPolicy) (config : ι → ServiceConfig)

abbrev MixedProc (ι : Type) := LiveProc ⊕ (ι × TransactionProc)
abbrev MixedWorld (ι : Type) := World Database Write LockKey InterventionCommand (MixedProc ι)
abbrev MixedAction (ι : Type) :=
  Action (LiveInput × TransactionInput) (PaymentEvent ⊕ ConfiguredArrival ι)

/-- Runs of the live pipeline, and connections, on one store. -/
abbrev mixedProgram : Program Database Write LockKey InterventionCommand (MixedProc ι)
    (LiveInput × TransactionInput) (PaymentEvent ⊕ ConfiguredArrival ι) :=
  (liveProgram policy).beside (configuredProgram config)

/-- Their runs from an empty store. -/
def mixedRun (as : List (MixedAction ι)) : Option (MixedWorld ι) :=
  Run.exec (mixedProgram policy config).worldStep ⟨{}, [], []⟩ as

/-- Whoever asks for a command has a decision that is named as `decide` names it. -/
def NamesDecisions (w : MixedWorld ι) (a : MixedAction ι) : Prop :=
  Program.worldGuard (Program.besideGuard (fun _ _ _ => True)
    (fun _ _ (input : TransactionInput) => input.NamesDecision)) w a

instance (w : MixedWorld ι) (a : MixedAction ι) : Decidable (NamesDecisions w a) :=
  inferInstanceAs (Decidable (Program.worldGuard _ w a))

/-- In every run of pipelines and calls, every row carries the provider its attempt is
registered under, linked rows agree, and the registry never changes its mind. -/
theorem providerIdentity {policy : InterventionPolicy} {config : ι → ServiceConfig}
    {as : List (MixedAction ι)} {w : MixedWorld ι}
    (hg : Run.Guarded (mixedProgram policy config).worldStep NamesDecisions ⟨{}, [], []⟩ as)
    (h : mixedRun policy config as = some w) :
    IdentityChain w.db ∧ ∀ as' w', Run.exec (mixedProgram policy config).worldStep w as' = some w' →
      KeepsRegistry w.db w'.db := by
  have hP := (liveProgram_identified policy).beside (configuredProgram_identified config) rfl
  have hgood := hP.invariant.exec (.empty .empty) hg h
  exact ⟨hgood.store.chain, fun as' w' h' => (hP.exec h').registry⟩

end Mixed

namespace IdentityExample

open ObservationLogExample (decision commandId)

def config : Unit → ServiceConfig := fun _ => ⟨deterministicBaselineModel, getDefaultPolicy⟩

/-- An authorization of payment `pay_1`, as this source reports it. -/
def authorization (i : ℕ) (sourceSystem : String) : PaymentEvent :=
  { eventId := i, sourceSystem := sourceSystem, sourceEventId := toString i, paymentId := "pay_1",
    timestamp := i, eventType := pipelineTriggerEventType, currency := "INR",
    amountMinorUnits := 10000, paymentStatus := "x", ingestedAt := i }

def attempt : AttemptRef := ⟨razorpaySourceSystem, "pay_1", "pay_1", validAttemptIdentity_pay_1⟩

/-- Session `i` takes `n` steps. -/
def advances (i n : ℕ) : List (MixedAction Unit) := List.replicate n (.advance i ({}, {}))

/-- The connection's caller makes a request, and the call takes `n` more steps. -/
def request (r : Request) (n : ℕ) : List (MixedAction Unit) :=
  .advance 2 ({}, { request := r }) :: advances 2 n

/-- Two sources claim one payment; its decision, command and observation follow. -/
def run : List (MixedAction Unit) :=
  [.arrive (.inl (authorization 1 razorpaySourceSystem)),
    .arrive (.inl (authorization 2 syntheticSourceSystem)), .arrive (.inr (.connect [()]))] ++
    advances 0 8 ++ advances 1 5 ++ request (.decide attempt 5) 3 ++
    request (.createCommand decision 300 5) 2 ++ request (.observe commandId 10) 2 ++
    request .commit 0

end IdentityExample

open IdentityExample in
theorem providerIdentity_run : ∃ w, mixedRun getDefaultPolicy IdentityExample.config run = some w ∧
    w.db.attempts.map (·.sourceSystem) = [razorpaySourceSystem] ∧ w.db.predictions.length = 1 ∧
    w.db.observations.map (·.sourceSystem) = [razorpaySourceSystem] ∧ IdentityChain w.db := by
  have hrun : ((Run.execGuarded (mixedProgram getDefaultPolicy IdentityExample.config).worldStep
      NamesDecisions ⟨{}, [], []⟩ run).map fun w =>
      decide (w.db.attempts.map (·.sourceSystem) = [razorpaySourceSystem] ∧
        w.db.predictions.length = 1 ∧
        w.db.observations.map (·.sourceSystem) = [razorpaySourceSystem])) = some true := by
    decide +kernel
  obtain ⟨w, hw, hfacts⟩ := Option.map_eq_some_iff.mp hrun
  obtain ⟨hg, hw⟩ := Run.execGuarded_eq_some.mp hw
  obtain ⟨hattempts, hpredictions, hobservations⟩ := of_decide_eq_true hfacts
  exact ⟨w, hw, hattempts, hpredictions, hobservations, (providerIdentity hg hw).1⟩

end RevenueRecovery
