import RevenueRecovery.Lib.Provenance
import RevenueRecovery.Rows
import RevenueRecovery.Services.Calls

/-!
# Stages 5-8: transactions of several calls

A connection runs one transaction after another. A transaction registers attempts, stores
the tables of Stages 2-4 and makes service calls in any number and order, until it commits,
is rolled back, or a call raises. The runs of the live pipeline and single service calls
are transactions of this kind.

## Main definitions
* `TransactionProc`, `Request` : where a connection stands and what it is asked to do.
* `transactionProgram`, `transactionRun` : any number of connections, and their runs.
* `namesCommand` : observations and attributions carry the identity of their command.
-/
namespace RevenueRecovery

open Transaction

/-- Where a connection stands: between two calls, or in one. -/
inductive TransactionProc
  | idle
  | calling (p : CallProc)
deriving DecidableEq

/-- What the caller does next in its transaction. -/
inductive Request
  | registerAttempt (row : RegisteredAttempt)
  | storeAnalytics (tables : AnalyticsTables)
  | predict (ref : AttemptRef) (t : Time)
  | decide (ref : AttemptRef) (tDecide : Time)
  | createCommand (decision : InterventionDecision) (expiresInSeconds : ℤ) (now : Time)
  | executeCommand (commandId : CommandId) (claimTime : Time)
  | observe (commandId : CommandId) (asOf : Time)
  | attributePayment (commandId : CommandId) (asOf : Time)
  | commit
  | rollback
deriving DecidableEq

abbrev TransactionOutcome := Outcome Write LockKey InterventionCommand TransactionProc

def Request.outcome : Request → TransactionOutcome
  | .registerAttempt row => .write [.registerAttempt row] .idle
  | .storeAnalytics tables => .write [.setAnalytics tables] .idle
  | .predict ref t => .write [] (.calling (.predict ref t))
  | .decide ref tDecide => .write [] (.calling (.decide ref tDecide))
  | .createCommand d e t => .write [] (.calling (.create d e t))
  | .executeCommand id t => .write [] (.calling (.execute id t .start))
  | .observe id asOf => .write [] (.calling (.observe id asOf))
  | .attributePayment id asOf => .write [] (.calling (.attributePayment id asOf))
  | .commit => .commit .idle
  | .rollback => .rollback .idle

/-- What the environment decides in one step, and the caller's next request. -/
structure TransactionInput extends CallInput where
  request : Request := .commit

/-- What happens outside the transactions: an event is ingested, a connection is opened. -/
inductive TransactionArrival
  | event (row : PaymentEvent)
  | connect
deriving DecidableEq

def TransactionArrival.effect : TransactionArrival → List Write × List TransactionProc
  | .event row => ([.insertEvent row], [])
  | .connect => ([], [.idle])

abbrev TransactionSession := Session Database Write LockKey TransactionProc
abbrev TransactionWorld := World Database Write LockKey InterventionCommand TransactionProc
abbrev TransactionAction := Action TransactionInput TransactionArrival

section Program
variable (model : FailurePredictionModel) (policy : InterventionPolicy)

/-- One step of a transaction; a call that raises rolls it back. -/
def transactionStep (p : TransactionProc) (input : TransactionInput) (reads : ℕ → Database)
    (now : Database) : Option TransactionOutcome :=
  match p with
  | .idle => some input.request.outcome
  | .calling (.returned _) => some (.write [] .idle)
  | .calling p =>
      match callStep model policy input.toCallInput reads now p with
      | .error _ => some (.rollback .idle)
      | .ok o => some (o.map .calling)

def transactionProgram : Program Database Write LockKey InterventionCommand TransactionProc
    TransactionInput TransactionArrival where
  apply := Database.apply
  violates := Database.violates
  clashes := Write.clashes
  clashes_symm := Write.clashes_symm
  step := transactionStep model policy
  onError _ := .idle
  arrive x _ := some x.effect

/-- The runs of transactions from an empty store. -/
def transactionRun (as : List TransactionAction) : Option TransactionWorld :=
  Run.exec (transactionProgram model policy).worldStep ⟨{}, [], []⟩ as

end Program

/-! ## Steps -/

section Steps
variable {model : FailurePredictionModel} {policy : InterventionPolicy} {db : Database}
  {s : TransactionSession} {input : TransactionInput} {o : TransactionOutcome}

theorem transactionProgram_view (db : Database) (s : TransactionSession) :
    (transactionProgram model policy).view db s = s.pending.foldl Database.apply db := rfl

/-- A call in progress makes its own steps. -/
theorem transactionStep_calling {p : CallProc} {o : CallOutcome} {reads : ℕ → Database}
    (hp : ∀ result, p ≠ .returned result)
    (h : CallStepped model policy input.toCallInput reads db p o) :
    transactionStep model policy (.calling p) input reads db = some (o.map .calling) := by
  cases p with
  | returned result => exact absurd rfl (hp result)
  | _ => simp only [transactionStep, h.callStep_eq]

theorem transactionProgram_arrive {x : TransactionArrival} {ws : List Write}
    {ps : List TransactionProc} (h : (transactionProgram model policy).arrive x db = some (ws, ps)) :
    ws = x.effect.1 ∧ ps = x.effect.2 := by
  have heq : x.effect = (ws, ps) := Option.some.inj h
  exact ⟨by rw [heq], by rw [heq]⟩

/-- What one step of a transaction can be. -/
inductive TransactionStepped (model : FailurePredictionModel) (policy : InterventionPolicy)
    (db : Database) (s : TransactionSession) (input : TransactionInput) :
    TransactionOutcome → Prop
  | requested (hproc : s.proc = .idle) :
      TransactionStepped model policy db s input input.request.outcome
  | returned {result} (hproc : s.proc = .calling (.returned result)) :
      TransactionStepped model policy db s input (.write [] .idle)
  | raised {p e} (hproc : s.proc = .calling p)
      (h : callStep model policy input.toCallInput ((transactionProgram model policy).reads db s)
        ((transactionProgram model policy).view db s) p = .error e) :
      TransactionStepped model policy db s input (.rollback .idle)
  | called {p o} (hproc : s.proc = .calling p) (hp : ∀ result, p ≠ .returned result)
      (h : CallStepped model policy input.toCallInput
        ((transactionProgram model policy).reads db s)
        ((transactionProgram model policy).view db s) p o) :
      TransactionStepped model policy db s input (o.map .calling)

theorem transactionStepped (h : (transactionProgram model policy).outcome db s input = some o) :
    TransactionStepped model policy db s input o := by
  have hstep : transactionStep model policy s.proc input
    ((transactionProgram model policy).reads db s)
    ((transactionProgram model policy).view db s) = some o := h
  cases hp : s.proc with
  | idle =>
      simp only [hp, transactionStep, Option.some.injEq] at hstep
      subst hstep
      exact .requested hp
  | calling p =>
      rw [hp] at hstep
      by_cases hret : ∃ result, p = .returned result
      · obtain ⟨result, rfl⟩ := hret
        simp only [transactionStep, Option.some.injEq] at hstep
        subst hstep
        exact .returned hp
      · have hcall : (match callStep model policy input.toCallInput
            ((transactionProgram model policy).reads db s)
            ((transactionProgram model policy).view db s) p with
            | .error _ => some (.rollback .idle)
            | .ok o => some (o.map .calling)) = some o := by
          cases p <;> first | exact hstep | exact absurd ⟨_, rfl⟩ hret
        split at hcall
        · obtain rfl := Option.some.inj hcall
          exact .raised hp ‹_›
        · obtain rfl := Option.some.inj hcall
          exact .called hp (fun result hr => hret ⟨result, hr⟩) (callStepped ‹_›)

/-- The unique constraints hold in every store the transactions commit, and every pending
row can be committed without breaking one. -/
theorem transactionRun_met {as : List TransactionAction} {w : TransactionWorld}
    (h : transactionRun model policy as = some w) :
    Program.Constraints.Met (transactionProgram model policy) Unique w :=
  .exec (Database.constraints rfl rfl rfl) (.empty .empty) h

end Steps

/-- Stores of the transactions lead on by keeping their rows. -/
theorem transactionProgram_grows (model : FailurePredictionModel)
    (policy : InterventionPolicy) : (transactionProgram model policy).Grows Keeps where
  refl := .refl
  trans := .trans
  write db ws := by
    rw [applyAll_eq_foldl rfl]
    exact .foldl db ws
  arrive {db x ws ps} vs _ := by
    simp only [applyAll_eq_foldl (P := transactionProgram model policy) rfl]
    exact (Keeps.foldl db ws).foldl_mono vs
  commit {ws vs} db _ := by
    simp only [applyAll_eq_foldl (P := transactionProgram model policy) rfl]
    exact (Keeps.foldl db ws).foldl_mono vs


/-! ## The rows of a command -/

/-- The row names itself by the version it has, and its command is stored under the same
provider and attempt. -/
def NamesCommand (db : Database) : Write → Prop
  | .insertObservation o => o.observationId = ⟨o.commandId, o.observationVersion⟩ ∧
      ∃ c ∈ db.commands, c.commandId = o.commandId ∧ c.sourceSystem = o.sourceSystem ∧
        c.paymentAttemptId = o.paymentAttemptId
  | .appendAttribution a => a.attributionId = ⟨a.commandId, a.attributionVersion⟩ ∧
      ∃ c ∈ db.commands, c.commandId = a.commandId ∧ c.sourceSystem = a.sourceSystem ∧
        c.paymentAttemptId = a.paymentAttemptId
  | _ => True

/-- Observations and attributions carry the identity of their command. -/
def namesCommand : Justification where
  holds := NamesCommand
  lasting {db db' w} hkeeps h := by
    have hcommand : ∀ {id : CommandId} {source key : String},
        (∃ c ∈ db.commands, c.commandId = id ∧ c.sourceSystem = source ∧
          c.paymentAttemptId = key) →
        ∃ c ∈ db'.commands, c.commandId = id ∧ c.sourceSystem = source ∧
          c.paymentAttemptId = key := by
      rintro id source key ⟨c, hc, hid, hsource, hkey⟩
      obtain ⟨c', hc', hsame⟩ := hkeeps.commands c hc
      exact ⟨c', hc', hsame.commandId.trans hid, hsame.sourceSystem.trans hsource,
        hsame.paymentAttemptId.trans hkey⟩
    cases w with
    | insertObservation o => exact ⟨h.1, hcommand h.2⟩
    | appendAttribution a => exact ⟨h.1, hcommand h.2⟩
    | _ => exact trivial

/-- A call names the command it has read. -/
theorem CallStepped.namesCommand {model : FailurePredictionModel} {policy : InterventionPolicy}
    {input : CallInput} {db : ℕ → Database} {now view : Database} {p next : CallProc}
    {ws : List Write} (h : CallStepped model policy input db now p (.write ws next))
    (hreads : ∀ k, Keeps (db k) view) : ∀ w ∈ ws, NamesCommand view w := by
  have hcommand : ∀ {k : ℕ} {id : CommandId} {c : InterventionCommand},
      (db k).getCommandById id = some c → ∃ c' ∈ view.commands, c'.commandId = id ∧
        c'.sourceSystem = c.sourceSystem ∧ c'.paymentAttemptId = c.paymentAttemptId := by
    intro k id c hget
    have hid : c.commandId = id := by simpa using List.find?_some hget
    obtain ⟨c', hc', hsame⟩ := (hreads k).commands c (List.mem_of_find?_eq_some hget)
    exact ⟨c', hc', hsame.commandId.trans hid, hsame.sourceSystem, hsame.paymentAttemptId⟩
  intro w hw
  have horigin := h.origin hw
  cases w with
  | insertObservation o =>
      obtain ⟨id, asOf, rfl, hobs⟩ := horigin
      obtain ⟨cmd, row, hget, -, rfl⟩ := observe_spec hobs
      have hid : cmd.commandId = id := by simpa using List.find?_some hget
      subst hid
      exact ⟨rfl, hcommand hget⟩
  | appendAttribution a =>
      obtain ⟨id, asOf, rfl, hattr⟩ := horigin
      obtain ⟨u, hu, -, rfl⟩ := attributePaymentIntervention_spec hattr
      have hget := (readUpstream_spec hu).1
      have hid : u.command.commandId = id := by simpa using List.find?_some hget
      obtain ⟨c', hc', hc'id, hsource, hkey⟩ := hcommand hget
      exact ⟨rfl, c', hc', hc'id.trans hid.symm, hsource, hkey⟩
  | _ => exact trivial

section Rows
variable {model : FailurePredictionModel} {policy : InterventionPolicy}

theorem transactionProgram_namesCommand (model : FailurePredictionModel)
    (policy : InterventionPolicy) :
    namesCommand.Respected (transactionProgram model policy) fun _ _ _ => True where
  apply := rfl
  arrive {db x ws ps} harr w hw := by
    obtain ⟨rfl, -⟩ := transactionProgram_arrive harr
    cases x <;> simp_all [TransactionArrival.effect, namesCommand, NamesCommand]
  write {db s input ws next} hreads _ h w hw := by
    have hview : Keeps ((transactionProgram model policy).view db s)
        ((transactionProgram model policy).view db (s.wrote ws next)) := keeps_view_wrote rfl db s ws next
    generalize ho : Outcome.write ws next = o at h
    cases transactionStepped h with
    | requested hproc =>
        cases hr : input.request <;> rw [hr] at ho <;> cases ho <;>
          simp_all [namesCommand, NamesCommand]
    | returned => cases ho; simp at hw
    | raised => cases ho
    | @called p o' hproc hp hcall =>
        cases o' with
        | write vs next' =>
            obtain ⟨rfl, -⟩ := Outcome.write.inj ho
            exact hcall.namesCommand (fun k => (hreads k).trans hview) w hw
        | _ => cases ho

/-- In every reachable store, observations and attributions carry the identity of their
command. -/
theorem transactionRun_namesCommand {as : List TransactionAction} {w : TransactionWorld}
    (h : transactionRun model policy as = some w) : Justified namesCommand w.db :=
  ((transactionProgram_namesCommand model policy).invariant.exec_true (.empty (.empty _)) h).store

end Rows

end RevenueRecovery
