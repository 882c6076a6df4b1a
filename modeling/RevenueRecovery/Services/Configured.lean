import RevenueRecovery.Lib.Locked
import RevenueRecovery.Lib.Simulation
import RevenueRecovery.Services.Registry
import RevenueRecovery.Services.Transactions

/-!
# Transactions whose services differ

A caller constructs the services of its transactions with a prediction model and a policy.
Here each connection has its own. The connections of one model and one policy are those of
`transactionProgram`.

## Main definitions
* `ServiceConfig` : what the services of a connection are constructed with.
* `configuredProgram`, `configuredRun` : any number of connections, and their runs.
* `CallLog` : what the calls have to keep of a table they append to under locks.
-/
namespace RevenueRecovery

open Transaction

/-- What the services of a connection are constructed with. -/
structure ServiceConfig where
  model : FailurePredictionModel
  policy : InterventionPolicy

/-- An event is ingested, or connections are opened, each with one of the configurations. -/
inductive ConfiguredArrival (ι : Type)
  | event (row : PaymentEvent)
  | connect (is : List ι)

def ConfiguredArrival.effect {ι : Type} :
    ConfiguredArrival ι → List Write × List (ι × TransactionProc)
  | .event row => ([.insertEvent row], [])
  | .connect is => ([], is.map fun i => (i, .idle))

abbrev ConfiguredSession (ι : Type) := Session Database Write LockKey (ι × TransactionProc)
abbrev ConfiguredWorld (ι : Type) :=
  World Database Write LockKey InterventionCommand (ι × TransactionProc)
abbrev ConfiguredAction (ι : Type) := Action TransactionInput (ConfiguredArrival ι)

/-- The session of the connection, whatever its services are constructed with. -/
abbrev ConfiguredSession.transaction {ι : Type} (s : ConfiguredSession ι) : TransactionSession :=
  Session.map Prod.snd (fun _ => true) s

section Program
variable {ι : Type} (config : ι → ServiceConfig)

/-- Each connection runs its transactions with its own services. -/
def configuredProgram : Program Database Write LockKey InterventionCommand (ι × TransactionProc)
    TransactionInput (ConfiguredArrival ι) where
  apply := Database.apply
  violates := Database.violates
  clashes := Write.clashes
  clashes_symm := Write.clashes_symm
  step p input reads now :=
    (transactionStep (config p.1).model (config p.1).policy p.2 input reads now).map
      (·.map (Prod.mk p.1))
  onError p := (p.1, .idle)
  arrive x _ := some x.effect

/-- The runs of such connections from an empty store. -/
def configuredRun (as : List (ConfiguredAction ι)) : Option (ConfiguredWorld ι) :=
  Run.exec (configuredProgram config).worldStep ⟨{}, [], []⟩ as

end Program

section Steps
variable {ι : Type} {config : ι → ServiceConfig} {db : Database} {s : ConfiguredSession ι}
  {input : TransactionInput} {o : Outcome Write LockKey InterventionCommand (ι × TransactionProc)}

theorem configuredProgram_view (db : Database) (s : ConfiguredSession ι) :
    (configuredProgram config).view db s = s.pending.foldl Database.apply db := rfl

theorem configuredProgram_arrive {x : ConfiguredArrival ι} {ws : List Write}
    {ps : List (ι × TransactionProc)} (h : (configuredProgram config).arrive x db = some (ws, ps)) :
    ws = x.effect.1 ∧ ps = x.effect.2 := by
  have heq : x.effect = (ws, ps) := Option.some.inj h
  exact ⟨by rw [heq], by rw [heq]⟩

/-- A connection makes the steps of its own services. -/
theorem configuredStepped (h : (configuredProgram config).outcome db s input = some o) :
    ∃ o', o = o'.map (Prod.mk s.proc.1) ∧
      TransactionStepped (config s.proc.1).model (config s.proc.1).policy db s.transaction
        input o' := by
  obtain ⟨o', ho', rfl⟩ := Option.map_eq_some_iff.mp h
  exact ⟨o', rfl, transactionStepped ho'⟩

/-- In a call a connection makes the step of the call. -/
theorem configuredProgram_called {i : ι} {p : CallProc} {o : CallOutcome}
    (hproc : s.proc = (i, .calling p)) (hp : ∀ result, p ≠ .returned result)
    (h : CallStepped (config i).model (config i).policy input.toCallInput
      ((configuredProgram config).reads db s) ((configuredProgram config).view db s) p o) :
    (configuredProgram config).outcome db s input =
      some ((o.map .calling).map (Prod.mk i)) := by
  have houtcome : (configuredProgram config).outcome db s input =
      (transactionStep (config s.proc.1).model (config s.proc.1).policy s.proc.2 input
        ((configuredProgram config).reads db s) ((configuredProgram config).view db s)).map
        (·.map (Prod.mk s.proc.1)) := rfl
  rw [houtcome, hproc]
  simp only [transactionStep_calling hp h, Option.map_some]

/-- The unique constraints hold in every store the connections commit. -/
theorem configuredRun_met {as : List (ConfiguredAction ι)} {w : ConfiguredWorld ι}
    (h : configuredRun config as = some w) :
    Program.Constraints.Met (configuredProgram config) Unique w :=
  .exec (Database.constraints rfl rfl rfl) (.empty .empty) h

end Steps

theorem configuredProgram_namesCommand {ι : Type} (config : ι → ServiceConfig) :
    namesCommand.Respected (configuredProgram config) fun _ _ _ => True where
  apply := rfl
  arrive {db x ws ps} harr w hw := by
    obtain ⟨rfl, -⟩ := configuredProgram_arrive harr
    cases x <;> simp_all [ConfiguredArrival.effect, namesCommand, NamesCommand]
  write {db s input ws next} hreads _ h w hw := by
    have hview : Keeps ((configuredProgram config).view db s)
        ((configuredProgram config).view db (s.wrote ws next)) := keeps_view_wrote rfl db s ws next
    obtain ⟨o, ho, hstep⟩ := configuredStepped h
    cases hstep with
    | requested hproc =>
        cases hr : input.request <;> rw [hr] at ho <;> cases ho <;>
          simp_all [namesCommand, NamesCommand]
    | returned => cases ho; simp at hw
    | raised => cases ho
    | @called p o' hproc hp hcall =>
        cases o' with
        | write vs next' =>
            obtain ⟨rfl, -⟩ := Outcome.write.inj ho
            exact hcall.namesCommand (fun k => (hreads k).trans hview) w hw
        | _ => cases ho

/-- Observations and attributions carry the identity of their command. -/
theorem configuredRun_namesCommand {ι : Type} {config : ι → ServiceConfig}
    {as : List (ConfiguredAction ι)} {w : ConfiguredWorld ι}
    (h : configuredRun config as = some w) :
    (configuredProgram config).Good (Justified namesCommand)
      (JustifiedSession (configuredProgram config) namesCommand) w :=
  (configuredProgram_namesCommand config).invariant.exec_true (.empty (.empty _)) h

/-- Connections of one model and one policy. -/
theorem transactionSimulation (model : FailurePredictionModel) (policy : InterventionPolicy) :
    (transactionProgram model policy).Simulates
      (configuredProgram fun _ : Unit => ⟨model, policy⟩) (Prod.mk ()) fun _ => true where
  apply := rfl
  violates := rfl
  clashes := rfl
  onError _ := rfl
  arrive {db x ws ps} harr := by
    obtain ⟨rfl, rfl⟩ := transactionProgram_arrive harr
    cases x with
    | event row => exact ⟨⟨.event row, rfl⟩, by simp [TransactionArrival.effect]⟩
    | connect =>
        refine ⟨⟨.connect [], rfl⟩, fun p hp => ⟨.connect [()], fun db' => ?_⟩⟩
        obtain rfl : p = .idle := by simpa [TransactionArrival.effect] using hp
        rfl
  step {db s input o} h := by
    refine .same input ?_
    have hstep : transactionStep model policy s.proc input
        ((transactionProgram model policy).reads db s)
        ((transactionProgram model policy).view db s) = some o := h
    exact congrArg (Option.map (Outcome.map (Prod.mk ()))) hstep

theorem transactionRun_configured {model : FailurePredictionModel} {policy : InterventionPolicy}
    {as : List TransactionAction} {w : TransactionWorld}
    (h : transactionRun model policy as = some w) :
    ∃ as', configuredRun (fun _ : Unit => ⟨model, policy⟩) as' =
      some (w.map (Prod.mk ()) fun _ => true) :=
  (transactionSimulation model policy).exec h

/-! ## Tables the calls append to -/

/-- The calls that a transaction starts with. -/
def CallProc.starts : CallProc → Bool
  | .predict .. | .decide .. | .create .. | .execute _ _ .start | .observe .. |
    .attributePayment .. => true
  | _ => false

section Logs
variable {ι Row : Type}

/-- The locks a connection needs are those of its call. -/
def callNeeds (needs : CallProc → LockKey → Prop) : ι × TransactionProc → LockKey → Prop
  | (_, .calling p), key => needs p key
  | (_, .idle), _ => False

/-- What a connection knows is what its call knows. -/
def callKnows (config : ι → ServiceConfig) (knows : ServiceConfig → Database → CallProc → Prop)
    (view : Database) : ι × TransactionProc → Prop
  | (i, .calling p) => knows (config i) view p
  | (_, .idle) => True

/-- The obligations of a table that calls append to under locks: what a call needs and knows
in each of its states, and what its steps then keep. -/
structure CallLog (T : LockedTable Database Write LockKey Row) (config : ι → ServiceConfig)
    (needs : CallProc → LockKey → Prop) (knows : ServiceConfig → Database → CallProc → Prop)
    (Φ : LockKey → List Row → Prop) : Prop where
  appends : ∀ db w, T.rows (Database.apply db w) = T.rows db ++ (T.row? w).toList
  event : ∀ e, T.row? (.insertEvent e) = none
  analytics : ∀ tables, T.row? (.setAnalytics tables) = none
  registration : ∀ row, T.row? (.registerAttempt row) = none
  start : ∀ {p}, p.starts = true → (∀ key, ¬needs p key) ∧ ∀ c db, knows c db p
  known : ∀ {c db db' p}, (∀ key, needs p key → T.guarded key db = T.guarded key db') →
    KeepsRegistry db db' → knows c db p → knows c db' p
  step : ∀ {i input db view p o},
    (∀ key, needs p key → ∀ k, T.guarded key (db k) = T.guarded key view) →
    (∀ k, KeepsRegistry (db k) view) → (∀ k, knows (config i) (db k) p) →
    knows (config i) view p → (∀ key, Φ key (T.guarded key view)) →
    CallStepped (config i).model (config i).policy input db view p o →
    T.Allowed (configuredProgram config) (callNeeds needs) (callKnows config knows) Φ view
      (i, .calling p) ((o.map .calling).map (Prod.mk i))

variable {T : LockedTable Database Write LockKey Row} {config : ι → ServiceConfig}
  {needs : CallProc → LockKey → Prop} {knows : ServiceConfig → Database → CallProc → Prop}
  {Φ : LockKey → List Row → Prop}

/-- A step that appends no row and leads to a state without locks keeps the table. -/
theorem allowed_of_none {i : ι} {view : Database} {p : CallProc} {o : CallOutcome}
    (hΦ : ∀ key, Φ key (T.guarded key view))
    (hws : ∀ ws next, o = .write ws next → ws.filterMap T.row? = [])
    (hneeds : ∀ key, ¬needs o.next key) (hknows : ∀ v, knows (config i) v o.next) :
    T.Allowed (configuredProgram config) (callNeeds needs) (callKnows config knows) Φ view
      (i, .calling p) ((o.map .calling).map (Prod.mk i)) := by
  cases o with
  | lock key next => exact ⟨fun key' hkey => absurd hkey (hneeds key'), hknows _⟩
  | write ws next =>
      refine fun _ => ⟨fun _ _ => ?_, fun key hkey => absurd hkey (hneeds key), fun key => ?_,
        hknows _⟩
      · simp [LockedTable.appended, hws ws next rfl]
      · simpa [LockedTable.appended, hws ws next rfl] using hΦ key
  | call effect next => exact ⟨fun key hkey => absurd hkey (hneeds key), hknows _⟩
  | commit next => exact ⟨hneeds, hknows⟩
  | rollback next => exact ⟨hneeds, hknows⟩

/-- So does every step of an execution, when the table is not one it writes to. -/
theorem allowed_of_execution {i : ι} {view now : Database} {r : Reads} {id : CommandId} {t : Time}
    {result : Option ExecutionResult} {q : ExecuteProc}
    {o : Outcome Write LockKey InterventionCommand ExecuteProc}
    (hΦ : ∀ key, Φ key (T.guarded key view)) (hrow : ∀ w, w.ofExecution id → T.row? w = none)
    (hneeds : ∀ q key, ¬needs (.execute id t q) key)
    (hknows : ∀ q v, knows (config i) v (.execute id t q))
    (h : executeStep id t r now result q = .ok o) :
    T.Allowed (configuredProgram config) (callNeeds needs) (callKnows config knows) Φ view
      (i, .calling (.execute id t q))
      (((o.map (CallProc.execute id t)).map .calling).map (Prod.mk i)) := by
  have hnext : ∃ q', (o.map (CallProc.execute id t)).next = .execute id t q' := by
    cases o <;> exact ⟨_, rfl⟩
  obtain ⟨q', hq'⟩ := hnext
  refine allowed_of_none hΦ (fun ws next ho => ?_) (hq' ▸ hneeds q') (hq' ▸ hknows q')
  cases o <;> cases ho
  exact List.filterMap_eq_nil_iff.mpr fun w hw => hrow w (executeStep_write h w hw)

/-- A request appends no row and starts a call that needs no lock yet. -/
private theorem CallLog.requested (h : CallLog T config needs knows Φ) {i : ι}
    {view : Database} (hΦ : ∀ key, Φ key (T.guarded key view)) (request : Request) :
    T.Allowed (configuredProgram config) (callNeeds needs) (callKnows config knows) Φ view
      (i, .idle) (request.outcome.map (Prod.mk i)) := by
  have hwrite : ∀ {ws : List Write} {next : TransactionProc}, ws.filterMap T.row? = [] →
      (∀ p, next = .calling p → p.starts = true) →
      T.Allowed (configuredProgram config) (callNeeds needs) (callKnows config knows) Φ view
        (i, .idle) (.write ws (i, next)) := by
    intro ws next hws hnext _
    refine ⟨fun _ _ => by simp [LockedTable.appended, hws], fun key hkey => ?_, fun key => ?_, ?_⟩
    · cases next with
      | idle => exact hkey
      | calling p => exact absurd hkey ((h.start (hnext p rfl)).1 key)
    · simpa [LockedTable.appended, hws] using hΦ key
    · cases next with
      | idle => trivial
      | calling p => exact (h.start (hnext p rfl)).2 _ _
  cases request with
  | registerAttempt row => exact hwrite (by simp [h.registration]) (by simp)
  | storeAnalytics tables => exact hwrite (by simp [h.analytics]) (by simp)
  | commit => exact ⟨fun _ => id, fun _ => trivial⟩
  | rollback => exact ⟨fun _ => id, fun _ => trivial⟩
  | _ => exact hwrite rfl (by rintro p ⟨⟩; rfl)

/-- Then every table of the connections is a log. -/
theorem CallLog.log (h : CallLog T config needs knows Φ) :
    T.Log (configuredProgram config) KeepsRegistry (callNeeds needs) (callKnows config knows) Φ where
  appends := h.appends
  arrive {db x ws ps} harr := by
    obtain ⟨rfl, rfl⟩ := configuredProgram_arrive harr
    refine ⟨?_, fun p hp => ?_⟩
    · cases x <;> simp [ConfiguredArrival.effect, h.event]
    · obtain ⟨i, rfl⟩ : ∃ i, p = (i, .idle) := by
        cases x <;> simp only [ConfiguredArrival.effect, List.not_mem_nil, List.mem_map] at hp
        obtain ⟨i, -, rfl⟩ := hp
        exact ⟨i, rfl⟩
      exact ⟨fun _ => id, fun _ => trivial⟩
  error p := ⟨fun _ => id, fun _ => trivial⟩
  later_refl := .refl
  later_trans := .trans
  known {db db' p} hrows hlater hknows := by
    obtain ⟨i, _ | q⟩ := p
    · trivial
    · exact h.known hrows hlater hknows
  later_arrive {db x ws ps} s harr := by
    obtain ⟨rfl, -⟩ := configuredProgram_arrive harr
    exact .foldl_of_none db (by cases x <;> rfl) s.pending
  later_commit db hapart := .apart rfl rfl db hapart
  step {db s input o} hrows hlater hreads hknows hΦ ho := by
    obtain ⟨o', rfl, hstep⟩ := configuredStepped ho
    obtain ⟨⟨i, q⟩, pending, locks, views⟩ := s
    cases hstep with
    | requested hproc =>
        obtain rfl : q = .idle := hproc
        exact h.requested hΦ input.request
    | @returned result hproc =>
        obtain rfl : q = .calling (.returned result) := hproc
        refine fun _ => ⟨fun _ _ => rfl, fun _ => False.elim, fun key => ?_, trivial⟩
        simpa [LockedTable.appended] using hΦ key
    | raised => exact ⟨fun _ => id, fun _ => trivial⟩
    | @called p o'' hproc hp hcall =>
        obtain rfl : q = .calling p := hproc
        exact h.step hrows hlater hreads hknows hΦ hcall

end Logs

end RevenueRecovery
