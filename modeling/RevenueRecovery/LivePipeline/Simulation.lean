import RevenueRecovery.Execution.Started
import RevenueRecovery.Lib.Simulation
import RevenueRecovery.LivePipeline.Run

/-!
# Runs of the live pipeline as transactions of service calls

A run of the live pipeline makes its calls in transactions as any other caller does: it is
simulated by a connection that requests them one by one. What holds of all transactions of
service calls holds of the runs (`liveRun_transactions`).

## Main definitions
* `LiveProc.transaction` : the connection a run corresponds to.
* `liveSimulation` : the simulation.
-/
namespace RevenueRecovery

open Transaction

/-- The connection of a run: in a call, or between two. -/
def LiveProc.transaction : LiveProc → TransactionProc
  | .trigger _ _ p => .calling p
  | .settling _ _ _ _ p => .calling p
  | _ => .idle

/-- A connection reads in a call only. -/
def LiveProc.isCalling : LiveProc → Bool
  | .trigger _ _ _ => true
  | .settling _ _ _ _ _ => true
  | _ => false

theorem LiveProc.transaction_call? {x : LiveProc} {p : CallProc} {f : CallProc → LiveProc}
    (h : x.call? = some (p, f)) :
    x.transaction = .calling p ∧ x.isCalling = true ∧ ∀ q, (f q).transaction = .calling q := by
  cases x <;> cases h <;> exact ⟨rfl, rfl, fun _ => rfl⟩

/-- The session of the connection. -/
abbrev LiveSession.transaction (s : LiveSession) : TransactionSession :=
  Session.map LiveProc.transaction LiveProc.isCalling s

/-- The world of the connections. -/
abbrev LiveWorld.transactions (w : LiveWorld) : TransactionWorld :=
  World.map LiveProc.transaction LiveProc.isCalling w

section Simulation
variable {policy : InterventionPolicy} {db : Database} {s : LiveSession} {input : LiveInput}
  {o : LiveOutcome}

/-- Between two calls a connection does what it is asked to. -/
private theorem requested {t : TransactionSession} (ht : t.proc = .idle) (request : Request) :
    (transactionProgram deterministicBaselineModel policy).outcome db t
      { request := request } = some request.outcome := by
  simp [Program.outcome, transactionProgram, transactionStep, ht]

/-- A step between two calls is what the connection is asked for. -/
private theorem matched_request {x : LiveProc} (hproc : s.proc = x) (hx : x.transaction = .idle)
    (request : Request) (ho : o.map LiveProc.transaction = request.outcome) :
    Program.Matched (transactionProgram deterministicBaselineModel policy) LiveProc.transaction
      LiveProc.isCalling db s o := by
  refine .same { request := request } ?_
  rw [requested (by rw [Session.proc_map, hproc, hx]), ho]

/-- A call that has returned is left, and the next one requested. -/
private theorem matched_returned {result : CallResult} {next : LiveProc}
    (hs : s.proc.transaction = .calling (.returned result))
    (hnext : next.transaction = .idle ∨
      ∃ request : Request, request.outcome = .write [] next.transaction) :
    Program.Matched (transactionProgram deterministicBaselineModel policy) LiveProc.transaction
      LiveProc.isCalling db s (.write [] next) := by
  have hleft : (transactionProgram deterministicBaselineModel policy).outcome db s.transaction {} =
      some (.write [] .idle) := by
    simp [Program.outcome, transactionProgram, transactionStep, hs]
  rcases hnext with hidle | ⟨request, hrequest⟩
  · exact .same {} (by rw [hleft, Outcome.map, hidle])
  · refine .twice {} { request := request } .idle hleft ?_
    rw [requested rfl, hrequest]

/-- In a call a connection makes the step of the call. -/
private theorem stepped_call {p : CallProc} {o' : CallOutcome}
    (hs : s.proc.transaction = .calling p) (hcalling : s.proc.isCalling = true)
    (hp : ∀ result, p ≠ .returned result)
    (h : CallStepped deterministicBaselineModel policy input.toCallInput
      ((liveProgram policy).reads db s) ((liveProgram policy).view db s) p o') :
    (transactionProgram deterministicBaselineModel policy).outcome db s.transaction
      { input.toCallInput with } = some (o'.map .calling) := by
  have hreads : (transactionProgram deterministicBaselineModel policy).reads db s.transaction =
      (liveProgram policy).reads db s := by
    funext k
    simp only [Program.reads, Session.map, hcalling, if_true]
    rfl
  have houtcome : (transactionProgram deterministicBaselineModel policy).outcome db s.transaction
      { input.toCallInput with } = transactionStep deterministicBaselineModel policy (.calling p)
        { input.toCallInput with } ((liveProgram policy).reads db s)
        ((liveProgram policy).view db s) := by
    rw [← hreads, ← hs]
    rfl
  rw [houtcome]
  exact transactionStep_calling hp h

/-- Each step of a run is matched by the steps of its connection. -/
theorem liveStepped_matched (h : LiveStepped policy db s input o) :
    Program.Matched (transactionProgram deterministicBaselineModel policy) LiveProc.transaction
      LiveProc.isCalling db s o := by
  cases h with
  | failed => exact .died rfl
  | @analytics e tables hproc =>
      exact matched_request hproc rfl (.storeAnalytics tables) rfl
  | analyticsStored hproc => exact matched_request hproc rfl (.commit) rfl
  | noAttempt hproc => exact .idle (by rw [hproc]; rfl) (by rw [hproc]; rfl)
  | @register e ref row hproc =>
      exact matched_request hproc rfl (.registerAttempt row) rfl
  | readCommands hproc => exact .idle (by rw [hproc]; rfl) (by rw [hproc]; rfl)
  | @registered e ref hproc =>
      exact matched_request hproc rfl (.predict ref (tEval e)) rfl
  | conflict hproc => exact .idle (by rw [hproc]; rfl) (by rw [hproc]; rfl)
  | settleNil hproc => exact .idle (by rw [hproc]; rfl) (by rw [hproc]; rfl)
  | @settleCons e id asOf queue hproc =>
      exact matched_request hproc rfl (.observe id asOf) rfl
  | @triggerReturned e ref result hproc =>
      refine matched_returned (by rw [hproc]; rfl) ?_
      cases result with
      | prediction p =>
          simp only [afterTriggerCall]
          split
          · exact .inr ⟨.decide ref (tEval e), rfl⟩
          · exact .inl rfl
      | decision d =>
          simp only [afterTriggerCall]
          split
          · exact .inr ⟨.createCommand d defaultExpiresInSeconds (tEval e), rfl⟩
          · exact .inl rfl
      | command c => exact .inr ⟨.executeCommand c.commandId (tEval e), rfl⟩
      | _ => exact .inl rfl
  | @settlingReturned e id asOf queue result hproc =>
      refine matched_returned (by rw [hproc]; rfl) ?_
      cases result with
      | observation o => exact .inr ⟨.attributePayment id asOf, rfl⟩
      | _ => exact .inl rfl
  | @called p f o' hproc hp hcall =>
      obtain ⟨hs, hcalling, hf⟩ := LiveProc.transaction_call? hproc
      have hmap : (o'.map f).map LiveProc.transaction = o'.map .calling := by
        cases o' <;> simp [Outcome.map, hf]
      exact .same { input.toCallInput with } (by rw [hmap]; exact stepped_call hs hcalling hp hcall)
  | finish hproc => exact matched_request hproc rfl (.commit) rfl

/-- Every step of a live pipeline run is matched by the runs of its calls. -/
theorem liveSimulation (policy : InterventionPolicy) :
    (liveProgram policy).Simulates (transactionProgram deterministicBaselineModel policy)
      LiveProc.transaction LiveProc.isCalling where
  apply := rfl
  violates := rfl
  clashes := rfl
  onError p := by cases p <;> rfl
  arrive {db e ws ps} harr := by
    obtain ⟨rfl, rfl⟩ := liveProgram_arrive harr
    refine ⟨⟨.event e, rfl⟩, fun p hp => ⟨.connect, fun db' => ?_⟩⟩
    have hidle : p.transaction = .idle := by
      rcases pipelineRuns_cases hp with ⟨-, rfl⟩ | ⟨-, rfl⟩ <;> rfl
    rw [hidle]
    rfl
  step h := liveStepped_matched (liveStepped h)

/-- The worlds of the runs are worlds of transactions. -/
theorem liveRun_transactions {as : List LiveAction} {w : LiveWorld}
    (h : liveRun policy as = some w) :
    ∃ as', transactionRun deterministicBaselineModel policy as' = some w.transactions :=
  (liveSimulation policy).exec h

end Simulation

end RevenueRecovery
