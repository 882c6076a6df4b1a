import RevenueRecovery.Execution.ObservationLog
import RevenueRecovery.Execution.Started

/-!
# Stage 7: what barred a command, and what is observed of it

The terminal barrier looks for terminal events of the attempt from any source outside
PayPal; an observation reads those of the command's own provider. A command the barrier
closed is observed with an outcome when one of the events it found was its provider's own.

## Main definitions
* `OwnOutcome` : a terminal event of the command's provider was ingested by a time.
* `BarredByOutcome` : the terminal barrier closed the command.
* `barsByOwn`, `observesOutcome` : steps that close a command, and that observe a closed one.
-/
namespace RevenueRecovery

open Transaction

/-- A terminal event of the attempt from the command's own provider was ingested by `t`. -/
def OwnOutcome (db : Database) (c : InterventionCommand) (t : Time) : Prop :=
  ∃ e ∈ db.events, isTerminalFrom c.sourceSystem c.paymentAttemptId e = true ∧ e.ingestedAt ≤ t

/-- The outcome is known. -/
def PaymentOutcome.known (o : PaymentOutcome) : Prop := o = .captured ∨ o = .failed

/-- The reason stored with a command that the terminal barrier closes. -/
def barredReason : String := "TERMINAL_OUTCOME_ALREADY_INGESTED"

/-- The terminal barrier closed the command; `updatedAt` is the claim time. -/
def InterventionCommand.BarredByOutcome (c : InterventionCommand) : Prop :=
  c.commandStatus = .notNeeded ∧ c.statusReason = some barredReason

/-! ## One store -/

section Store
variable {db db' : Database} {c c' : InterventionCommand} {t t' : Time}

theorem OwnOutcome.mono (h : OwnOutcome db c t) (hkeeps : Keeps db db')
    (hsame : c.SamePayload c') (hle : t ≤ t') : OwnOutcome db' c' t' := by
  obtain ⟨e, he, hterm, hat⟩ := h
  refine ⟨e, hkeeps.events he, ?_, hat.trans hle⟩
  rw [hsame.sourceSystem, hsame.paymentAttemptId]
  exact hterm

/-- An observation reports an outcome exactly when there is an event of the provider. -/
theorem newObservation_known {r : Reads} {cmd : InterventionCommand} {asOf : Time} :
    (newObservation r cmd asOf).paymentOutcome.known ↔ OwnOutcome (r.db 0) cmd asOf := by
  have hmem : ∀ e, e ∈ getCanonicalTerminalEvents r 0 cmd.sourceSystem cmd.paymentAttemptId asOf ↔
      e ∈ (r.db 0).events ∧ isTerminalFrom cmd.sourceSystem cmd.paymentAttemptId e = true ∧
        e.ingestedAt ≤ asOf := fun e => mem_getCanonicalTerminalEvents
  cases hevents : getCanonicalTerminalEvents r 0 cmd.sourceSystem cmd.paymentAttemptId asOf with
  | nil =>
      rw [hevents] at hmem
      refine iff_of_false ?_ ?_
      · simp [newObservation, hevents, PaymentOutcome.known]
      · rintro ⟨e, he⟩
        exact absurd ((hmem e).mpr he) List.not_mem_nil
  | cons first rest =>
      rw [hevents] at hmem
      refine iff_of_true ?_ ⟨first, (hmem first).mp List.mem_cons_self⟩
      simp only [newObservation, hevents, List.head?_cons, Option.elim_some, eventOutcome,
        PaymentOutcome.known]
      split
      · exact .inl rfl
      · exact .inr rfl

/-- The store after the terminal barrier has closed a command at `t`. -/
def Database.barred (db : Database) (id : CommandId) (t : Time) : Database :=
  db.apply (.updateCommandStatus id .pending .notNeeded (some barredReason) t)

theorem getCommandById_barred {id : CommandId} (hget : db.getCommandById id = some c)
    (hpending : c.commandStatus = .pending) :
    (db.barred id t).getCommandById id = some (c.setStatus .notNeeded (some barredReason) t) := by
  have hid : c.commandId = id := by simpa using List.find?_some hget
  have hkey : ((fun x : InterventionCommand => decide (x.commandId = id)) ∘ fun x =>
      if x.commandId = id ∧ x.commandStatus = .pending
        then x.setStatus .notNeeded (some barredReason) t else x) =
      fun x => decide (x.commandId = id) := by
    funext x
    simp only [Function.comp_apply, decide_eq_decide]
    split
    · rw [InterventionCommand.commandId_setStatus]
    · rfl
  have hfind : (db.barred id t).getCommandById id = (db.getCommandById id).map fun x =>
      if x.commandId = id ∧ x.commandStatus = .pending
        then x.setStatus .notNeeded (some barredReason) t else x := by
    simp only [Database.barred, Database.apply, Database.getCommandById, List.find?_map, hkey]
  rw [hfind, hget, Option.map_some, if_pos ⟨hid, hpending⟩]

/-- After the barrier has closed a command, and before anything else happens, it is observed
with an outcome as of every time from then on exactly when a terminal event of its own
provider was among those that barred it. -/
theorem observe_barred_iff {id : CommandId}
    (hcheck : executeCheck (.all db) id t = .ok (.close .notNeeded barredReason)) :
    (∀ asOf, t ≤ asOf → ∀ r : Reads, (∀ k, r.db k = db.barred id t) → ∀ o,
        observe r id asOf = .ok o → o.paymentOutcome.known) ↔
      ∀ c, db.getCommandById id = some c → OwnOutcome db c t := by
  obtain ⟨c, row, hget, hpending, hrequired⟩ : ∃ c row, db.getCommandById id = some c ∧
      c.commandStatus = .pending ∧
      db.requireKey c.sourceSystem c.paymentAttemptId = .ok row := by
    obtain ⟨c, hget, hcases⟩ := executeCheck_spec hcheck
    have hget' : db.getCommandById id = some c := hget
    have hpending : c.commandStatus = .pending := by
      rcases hcases with ⟨-, h⟩ | ⟨h, -⟩ | ⟨h, -⟩ | ⟨h, -⟩
      · cases h
      all_goals exact h
    cases hrequired : db.requireKey c.sourceSystem c.paymentAttemptId with
    | ok row => exact ⟨c, row, hget', hpending, hrequired⟩
    | error e =>
        have hread : (Reads.all db).db = fun _ => db := rfl
        simp [executeCheck, hread, hget', hrequired, bind, Except.bind] at hcheck
  have hbarred := getCommandById_barred (t := t) hget hpending
  have hsame : c.SamePayload (c.setStatus .notNeeded (some barredReason) t) := .setStatus c _ _ _
  have hevents : (db.barred id t).events = db.events := rfl
  constructor
  · intro hall c' hget'
    obtain rfl : c = c' := Option.some.inj (hget.symm.trans hget')
    have hobserve : observe (.all (db.barred id t)) id t =
        .ok (newObservation ((Reads.all (db.barred id t)).shift 2)
          (c.setStatus .notNeeded (some barredReason) t) t) := by
      have hread : (Reads.all (db.barred id t)).db = fun _ => db.barred id t := rfl
      have hrow : (db.barred id t).requireKey c.sourceSystem c.paymentAttemptId = .ok row :=
        hrequired
      simp only [observe, hread, hbarred, bind, Except.bind]
      rw [show (c.setStatus .notNeeded (some barredReason) t).sourceSystem = c.sourceSystem from rfl,
        show (c.setStatus .notNeeded (some barredReason) t).paymentAttemptId =
          c.paymentAttemptId from rfl, hrow]
      rfl
    exact newObservation_known.mp (hall t le_rfl _ (fun _ => rfl) _ hobserve)
  · intro hown asOf hle r hr o ho
    obtain ⟨cmd, row', hcmd, -, rfl⟩ := observe_spec ho
    rw [hr, hbarred] at hcmd
    obtain rfl := Option.some.inj hcmd
    refine newObservation_known.mpr ?_
    obtain ⟨e, he, hterm, hat⟩ := hown c hget
    have hdb : (r.shift 2).db 0 = db.barred id t := hr 2
    refine ⟨e, ?_, hterm, hat.trans hle⟩
    rw [hdb, hevents]
    exact he

end Store

/-! ## Runs -/

/-- The closed commands of a store were barred by an event of their own provider. -/
def ClosedByOwn (db : Database) : Prop :=
  ∀ c ∈ db.commands, c.commandStatus = .notNeeded →
    ∃ c' ∈ db.commands, c'.commandId = c.commandId ∧ OwnOutcome db c' c.updatedAt

/-- A write closes a command only when an event of its own provider bars it. -/
def ClosesByOwn (db : Database) : Write → Prop
  | .updateCommandStatus id _ target _ t => target = .notNeeded →
      ∃ c ∈ db.commands, c.commandId = id ∧ OwnOutcome db c t
  | .insertCommand c => c.commandStatus ≠ .notNeeded
  | _ => True

/-- An execution about to close its command has found an event of its own provider. -/
def KnowsOwn (db : Database) : TransactionProc → Prop
  | .calling (.execute id t (.close target _)) => target = .notNeeded →
      ∃ c ∈ db.commands, c.commandId = id ∧ OwnOutcome db c t
  | _ => True

section Closed
variable {db db' : Database}

private theorem closes_mono {id : CommandId} {t : Time} (hkeeps : Keeps db db')
    (h : ∃ c ∈ db.commands, c.commandId = id ∧ OwnOutcome db c t) :
    ∃ c ∈ db'.commands, c.commandId = id ∧ OwnOutcome db' c t := by
  obtain ⟨c, hc, hid, hown⟩ := h
  obtain ⟨c', hc', hsame⟩ := hkeeps.commands c hc
  exact ⟨c', hc', hsame.commandId.trans hid, hown.mono hkeeps hsame le_rfl⟩

theorem ClosesByOwn.mono {w : Write} (h : ClosesByOwn db w) (hkeeps : Keeps db db') :
    ClosesByOwn db' w := by
  cases w with
  | updateCommandStatus id expected target reason t =>
      exact fun htarget => closes_mono hkeeps (h htarget)
  | insertCommand c => exact h
  | _ => trivial

theorem KnowsOwn.mono {p : TransactionProc} (h : KnowsOwn db p) (hkeeps : Keeps db db') :
    KnowsOwn db' p := by
  unfold KnowsOwn at h ⊢
  split
  · exact fun htarget => closes_mono hkeeps (h htarget)
  · trivial

/-- A command of a later store is one of the earlier store, was inserted, or stands as an
update has left it. -/
theorem mem_commands_foldl {ws : List Write} {c : InterventionCommand}
    (hc : c ∈ (ws.foldl Database.apply db).commands) :
    c ∈ db.commands ∨ .insertCommand c ∈ ws ∨
      ∃ expected, .updateCommandStatus c.commandId expected c.commandStatus c.statusReason
        c.updatedAt ∈ ws := by
  induction ws generalizing db with
  | nil => exact .inl hc
  | cons w ws ih =>
      rcases ih hc with hdb | hinsert | ⟨expected, hupdate⟩
      · cases w with
        | registerAttempt row =>
            simp only [Database.apply] at hdb
            split at hdb <;> exact .inl hdb
        | insertCommand row =>
            rcases List.mem_append.mp hdb with hdb | hrow
            · exact .inl hdb
            · obtain rfl := List.mem_singleton.mp hrow
              exact .inr (.inl List.mem_cons_self)
        | updateCommandStatus id expected target reason t =>
            obtain ⟨x, hx, rfl⟩ := List.mem_map.mp hdb
            split
            · rename_i hmatch
              obtain ⟨rfl, -⟩ := hmatch
              exact .inr (.inr ⟨expected, List.mem_cons_self⟩)
            · exact .inl hx
        | _ => exact .inl hdb
      · exact .inr (.inl (List.mem_cons_of_mem _ hinsert))
      · exact .inr (.inr ⟨expected, List.mem_cons_of_mem _ hupdate⟩)

theorem ClosedByOwn.foldl {ws : List Write} (h : ClosedByOwn db)
    (hws : ∀ w ∈ ws, ClosesByOwn (ws.foldl Database.apply db) w) :
    ClosedByOwn (ws.foldl Database.apply db) := by
  intro c hc hclosed
  rcases mem_commands_foldl hc with hdb | hinsert | ⟨expected, hupdate⟩
  · exact closes_mono (.foldl db ws) (h c hdb hclosed)
  · exact absurd hclosed (hws _ hinsert)
  · exact hws _ hupdate hclosed

end Closed

section Runs
variable {model : FailurePredictionModel} {policy : InterventionPolicy}

/-- When the barrier finds a terminal event of the attempt, it finds one of the command's own
provider. -/
def barsByOwn (model : FailurePredictionModel) (policy : InterventionPolicy) (db : Database)
    (s : TransactionSession) (input : TransactionInput) : Prop :=
  ∀ id t c, s.proc = .calling (.execute id t .check) →
    let r := input.reads ((transactionProgram model policy).reads db s)
    (r.db 0).getCommandById id = some c →
    checkTerminalEventExistsBefore (r.db 2) c.paymentAttemptId t = true → OwnOutcome (r.db 2) c t

/-- A command that the call reads as closed by the barrier is observed, from its claim time
on, with an outcome. -/
def observesOutcome (model : FailurePredictionModel) (policy : InterventionPolicy) (db : Database)
    (s : TransactionSession) (input : TransactionInput) : Prop :=
  ∀ id asOf c o, s.proc = .calling (.observe id asOf) →
    let r := input.reads ((transactionProgram model policy).reads db s)
    (r.db 0).getCommandById id = some c → c.BarredByOutcome → c.updatedAt ≤ asOf →
    observe r id asOf = .ok o → o.paymentOutcome.known

/-- An execution closes its command when an event of its own provider bars it. -/
theorem ExecuteProc.closesByOwn {id : CommandId} {t : Time} {q next : ExecuteProc} {r : Reads}
    {now view : Database} {result : Option ExecutionResult} {ws : List Write}
    (hstep : executeStep id t r now result q = .ok (.write ws next))
    (hreads : ∀ k, Keeps (r.db k) view) (hknows : KnowsOwn view (.calling (.execute id t q)))
    (hbars : q = .check → ∀ c, (r.db 0).getCommandById id = some c →
      checkTerminalEventExistsBefore (r.db 2) c.paymentAttemptId t = true →
      OwnOutcome (r.db 2) c t) :
    (∀ w ∈ ws, ClosesByOwn (ws.foldl Database.apply view) w) ∧
      KnowsOwn (ws.foldl Database.apply view) (.calling (.execute id t next)) := by
  cases q with
  | start => simp [executeStep] at hstep
  | check =>
      simp only [executeStep] at hstep
      cases hcheck : executeCheck r id t with
      | error e => simp [hcheck, Except.map] at hstep
      | ok q =>
          obtain ⟨rfl, rfl⟩ : [] = ws ∧ q = next := by simpa [hcheck, Except.map] using hstep
          refine ⟨by simp, ?_⟩
          obtain ⟨c, hget, hcases⟩ := executeCheck_spec hcheck
          rcases hcases with ⟨-, rfl⟩ | ⟨-, -, rfl⟩ | ⟨-, -, hterm, rfl⟩ | ⟨-, -, -, rfl⟩
          · trivial
          · exact fun htarget => by cases htarget
          · intro _
            have hid : c.commandId = id := by simpa using List.find?_some hget
            obtain ⟨c', hc', hsame⟩ := (hreads 0).commands c (List.mem_of_find?_eq_some hget)
            exact ⟨c', hc', hsame.commandId.trans hid,
              (hbars rfl c hget hterm).mono (hreads 2) hsame le_rfl⟩
          · trivial
  | close target reason =>
      obtain ⟨rfl, rfl⟩ := Outcome.write.inj (Except.ok.inj hstep)
      refine ⟨fun w hw => ?_, trivial⟩
      obtain rfl := List.mem_singleton.mp hw
      exact fun htarget => closes_mono (.foldl view _) (hknows htarget)
  | claim =>
      obtain ⟨rfl, rfl⟩ := Outcome.write.inj (Except.ok.inj hstep)
      refine ⟨by simp [ClosesByOwn], ?_⟩
      split <;> trivial
  | dispatch =>
      simp only [executeStep] at hstep
      split at hstep <;> cases hstep
  | running cmd =>
      simp only [executeStep] at hstep
      split at hstep <;> cases hstep
      exact ⟨by simp [ClosesByOwn], trivial⟩
  | finalize res =>
      obtain ⟨rfl, rfl⟩ := Outcome.write.inj (Except.ok.inj hstep)
      have htarget : finalStatus res ≠ .notNeeded := by
        unfold finalStatus
        split <;> decide
      exact ⟨by simp [ClosesByOwn, htarget], trivial⟩
  | done =>
      obtain ⟨rfl, rfl⟩ := Outcome.write.inj (Except.ok.inj hstep)
      exact ⟨by simp, trivial⟩

/-- What a step of a call does when barriers find events of the command's own provider. -/
def OwnOutcomeStep (view : Database) : CallOutcome → Prop
  | .write ws next => (∀ w ∈ ws, ClosesByOwn (ws.foldl Database.apply view) w) ∧
      KnowsOwn (ws.foldl Database.apply view) (.calling next)
  | .lock _ next | .call _ next => KnowsOwn view (.calling next)
  | .commit _ | .rollback _ => True

theorem CallStepped.closesByOwn {input : CallInput} {reads : ℕ → Database}
    {now view : Database} {p : CallProc} {o : CallOutcome}
    (h : CallStepped model policy input reads now p o) (hreads : ∀ k, Keeps (reads k) view)
    (hknows : KnowsOwn view (.calling p))
    (hbars : ∀ id t c, p = .execute id t .check → (reads 0).getCommandById id = some c →
      checkTerminalEventExistsBefore (reads 2) c.paymentAttemptId t = true →
      OwnOutcome (reads 2) c t) : OwnOutcomeStep view o := by
  cases h with
  | @executing id t q o' hq hex =>
      cases o' with
      | write ws next =>
          exact ExecuteProc.closesByOwn hex hreads hknows fun hcheck c =>
            hbars id t c (by rw [hcheck])
      | lock key next =>
          obtain ⟨-, rfl⟩ := executeStep_lock hex
          trivial
      | call effect next =>
          obtain ⟨-, rfl, -⟩ := executeStep_call hex
          trivial
      | _ => trivial
  | created hcreate =>
      obtain ⟨-, route, -, hcases⟩ := createCommand_spec hcreate
      rcases hcases with ⟨c, hc, -⟩ | ⟨c, hc, -⟩ | hc
      · cases hc
      · cases hc
      · cases hc
        exact ⟨by simp [ClosesByOwn, newCommand], trivial⟩
  | predictLock | decideLock | lockedAct | attributeLock => trivial
  | _ => exact ⟨by simp [ClosesByOwn], trivial⟩

/-- Transactions whose barriers find events of the command's own provider close commands
that such an event bars. -/
theorem transactionProgram_closedByOwn (model : FailurePredictionModel)
    (policy : InterventionPolicy) :
    (transactionProgram model policy).Provenance Keeps ClosedByOwn ClosesByOwn
      (barsByOwn model policy) fun view _ p => KnowsOwn view p where
  grows := transactionProgram_grows model policy
  lasting hkeeps h := h.mono hkeeps
  collect {db ws} h hws := by
    rw [applyAll_eq_foldl rfl] at hws ⊢
    exact h.foldl hws
  knowing hkeeps h := KnowsOwn.mono h hkeeps
  arrive {db x ws ps} harr := by
    obtain ⟨rfl, rfl⟩ := transactionProgram_arrive harr
    cases x with
    | event row => exact ⟨by simp [TransactionArrival.effect, ClosesByOwn],
        by simp [TransactionArrival.effect]⟩
    | connect => exact ⟨by simp [TransactionArrival.effect],
        by simp [TransactionArrival.effect, KnowsOwn]⟩
  error _ _ := trivial
  step {db s input o} _ hreads hknows hbars ho := by
    have hwrote : ∀ ws next, (transactionProgram model policy).view db (s.wrote ws next) =
        ws.foldl Database.apply ((transactionProgram model policy).view db s) :=
      fun ws next => Program.view_wrote _ db s ws next
    cases transactionStepped ho with
    | requested hproc =>
        cases hr : input.request with
        | commit => exact fun _ => trivial
        | rollback => exact fun _ => trivial
        | registerAttempt | storeAnalytics => exact ⟨by simp [ClosesByOwn], trivial⟩
        | _ => exact ⟨by simp, trivial⟩
    | returned => exact ⟨by simp, trivial⟩
    | raised => exact fun _ => trivial
    | @called p o' hproc hp hcall =>
        rw [hproc] at hknows
        have hcalled := hcall.closesByOwn hreads hknows fun id t c hp => hbars id t c (hp ▸ hproc)
        cases o' with
        | write ws next =>
            simp only [Outcome.map, hwrote]
            exact hcalled
        | lock | call => exact hcalled
        | commit next => exact absurd rfl (hcall.inside.1 next)
        | rollback next => exact absurd rfl (hcall.inside.2 next)

/-- The invariant of the runs: what is closed was barred by its own provider, in the store, in
every view, and in the order the views were recorded. -/
theorem barredInvariant (model : FailurePredictionModel) (policy : InterventionPolicy) :
    (transactionProgram model policy).Invariant (barsByOwn model policy)
      (fun db => ClosedByOwn db ∧ Unique db) fun db s =>
        (Program.Provenance.Kept (transactionProgram model policy) Keeps ClosesByOwn
            (fun view _ p => KnowsOwn view p) db s ∧
          (transactionProgram model policy).violatesAny db s.pending = false) ∧
        (∀ v ∈ s.views, ClosedByOwn v ∧ Unique v) ∧ s.views.Pairwise Keeps := by
  have hclosed := transactionProgram_closedByOwn model policy
  have hunique : (transactionProgram model policy).Constraints Write.conflicts Unique :=
    Database.constraints rfl rfl rfl
  refine (hclosed.invariant.and hunique.invariant).recorded (fun hG hL => ?_) fun hL => hL.1.views
  exact ⟨hL.1.view hclosed hG.1, hunique.keep_applyAll hG.2 hL.2⟩

/-- In every run whose barriers, when they find a terminal event, find one of the command's
own provider, a command that was closed by the barrier is observed with an outcome as of
every time from its claim on. For a command that the barrier closes in a store nothing else
happens to, such an event is also necessary. -/
theorem barrier_observer_agree (model : FailurePredictionModel) (policy : InterventionPolicy) :
    (∀ as w, transactionRun model policy as = some w →
      Run.Guarded (transactionProgram model policy).worldStep
        (Program.worldGuard (barsByOwn model policy)) ⟨{}, [], []⟩ as →
      ∀ a : TransactionAction, Program.worldGuard (observesOutcome model policy) w a) ∧
    ∀ db id t, executeCheck (.all db) id t = .ok (.close .notNeeded barredReason) →
      ((∀ asOf, t ≤ asOf → ∀ r : Reads, (∀ k, r.db k = db.barred id t) → ∀ o,
          observe r id asOf = .ok o → o.paymentOutcome.known) ↔
        ∀ c, db.getCommandById id = some c → OwnOutcome db c t) := by
  refine ⟨fun as w h hbars a => ?_, fun db id t hcheck => observe_barred_iff hcheck⟩
  have hclosed := transactionProgram_closedByOwn model policy
  have hgood := (barredInvariant model policy).exec
    (.empty ⟨by simp [ClosedByOwn], Unique.empty⟩) hbars h
  cases a with
  | advance i input =>
      intro s hs id asOf c o hproc r hget hbarred hle ho
      obtain ⟨⟨hkept, hpending⟩, hviews, hpair⟩ := hgood.session s (List.mem_of_getElem? hs)
      have hunique : (transactionProgram model policy).Constraints Write.conflicts Unique :=
        Database.constraints rfl rfl rfl
      have hread := Program.reads_of_views (P := transactionProgram model policy) hviews
        ⟨hkept.view hclosed hgood.store.1, hunique.keep_applyAll hgood.store.2 hpending⟩
      have hordered : Keeps (r.db 0) (r.db 2) :=
        Program.reads_ordered (P := transactionProgram model policy) .refl hkept.views hpair
          (Nat.zero_le 2)
      have hc : c ∈ (r.db 0).commands := List.mem_of_find?_eq_some hget
      obtain ⟨c', hc', hid, hown⟩ := (hread 0).1 c hc hbarred.1
      obtain rfl := (hread 0).2.command_eq hc' hc (.inl hid)
      obtain ⟨cmd, row, hcmd, -, rfl⟩ := observe_spec ho
      obtain rfl := Option.some.inj (hget.symm.trans hcmd)
      exact newObservation_known.mpr (hown.mono hordered (.refl _) hle)
  | _ => trivial

end Runs

/-! ### A capture of another source -/

namespace BarredExample
open ObservationLogExample

/-- A capture of the payment by a source other than PayPal. -/
def capture (source : String) : PaymentEvent :=
  { eventId := 1, sourceSystem := source, sourceEventId := "evt", paymentId := "pay_1",
    timestamp := 1, eventType := capturedEventType, currency := "INR",
    amountMinorUnits := 10000, paymentStatus := "captured", ingestedAt := 1 }

/-- The command of a Razorpay payment is created, a capture arrives, and the command is
closed when it is executed; it is about to be observed. -/
def closing (source : String) : List TransactionAction :=
  [.arrive .connect] ++
    request (.registerAttempt ⟨"pay_1", razorpaySourceSystem, "pay_1", 0⟩) 0 ++
    request (.createCommand decision 300 0) 2 ++ [.arrive (.event (capture source))] ++
    request (.executeCommand commandId 2) 5 ++ request .commit 0 ++
    request (.observe commandId 10) 0

/-- What the session in this world reads. -/
def readsOf (w : TransactionWorld) (s : TransactionSession) : Reads :=
  ({} : TransactionInput).reads
    ((transactionProgram deterministicBaselineModel getDefaultPolicy).reads w.db s)

/-- The closed command of the Razorpay payment is about to be observed. -/
structure Observing (source : String) (w : TransactionWorld) (s : TransactionSession)
    (c : InterventionCommand) (o : PaymentOutcomeObservation) : Prop where
  run : world (closing source) = some w
  session : w.sessions[0]? = some s
  proc : s.proc = .calling (.observe commandId 10)
  command : ((readsOf w s).db 0).getCommandById commandId = some c
  barred : c.BarredByOutcome
  claimed : c.updatedAt = 2
  observed : observe (readsOf w s) commandId 10 = .ok o

/-- The outcome that is observed, when the barrier has closed the command at its claim. -/
def observedOutcome (source : String) : Option PaymentOutcome := do
  let w ← world (closing source)
  let s ← w.sessions[0]?
  let c ← ((readsOf w s).db 0).getCommandById commandId
  let o ← (observe (readsOf w s) commandId 10).toOption
  if s.proc = .calling (.observe commandId 10) ∧ (c.commandStatus = .notNeeded ∧
    c.statusReason = some barredReason) ∧ c.updatedAt = 2 then some o.paymentOutcome else none

theorem observing_of_outcome {source : String} {outcome : PaymentOutcome}
    (h : observedOutcome source = some outcome) :
    ∃ w s c o, Observing source w s c o ∧ o.paymentOutcome = outcome := by
  obtain ⟨w, hw, h⟩ := Option.bind_eq_some_iff.mp h
  obtain ⟨s, hs, h⟩ := Option.bind_eq_some_iff.mp h
  obtain ⟨c, hc, h⟩ := Option.bind_eq_some_iff.mp h
  obtain ⟨o, ho, h⟩ := Option.bind_eq_some_iff.mp h
  obtain ⟨⟨hproc, hbarred, hclaimed⟩, houtcome⟩ := Option.ite_none_right_eq_some.mp h
  refine ⟨w, s, c, o, ⟨hw, hs, hproc, hc, hbarred, hclaimed, ?_⟩, Option.some.inj houtcome⟩
  cases hobserve : observe (readsOf w s) commandId 10 with
  | error e =>
      rw [hobserve] at ho
      cases ho
  | ok o' =>
      rw [hobserve] at ho
      exact congrArg Except.ok (Option.some.inj ho)

/-- Each terminal event of an attempt that is read is of the provider of its command. -/
def ReadsOwn (db : Database) (s : TransactionSession) (input : TransactionInput) : Prop :=
  let r := input.reads
    ((transactionProgram deterministicBaselineModel getDefaultPolicy).reads db s)
  ∀ c ∈ (r.db 0).commands, ∀ e ∈ (r.db 2).events, isTerminalOf c.paymentAttemptId e = true →
    isTerminalFrom c.sourceSystem c.paymentAttemptId e = true

instance ReadsOwn.decidable (db : Database) (s : TransactionSession) (input : TransactionInput) :
    Decidable (ReadsOwn db s input) :=
  inferInstanceAs (Decidable (∀ c ∈ ((input.reads ((transactionProgram
    deterministicBaselineModel getDefaultPolicy).reads db s)).db 0).commands, ∀ e ∈ _, _ → _))

theorem ReadsOwn.barsByOwn {db : Database} {s : TransactionSession} {input : TransactionInput}
    (h : ReadsOwn db s input) :
    barsByOwn deterministicBaselineModel getDefaultPolicy db s input := by
  intro id t c _ r hget hexists
  obtain ⟨e, he, hfound⟩ := List.any_eq_true.mp hexists
  obtain ⟨hterminal, hat⟩ := Bool.and_eq_true_iff.mp hfound
  exact ⟨e, he, h c (List.mem_of_find?_eq_some hget) e he hterminal, of_decide_eq_true hat⟩

theorem closing_readsOwn : (Run.execGuarded
    (transactionProgram deterministicBaselineModel getDefaultPolicy).worldStep
    (Program.worldGuard ReadsOwn) ⟨{}, [], []⟩ (closing razorpaySourceSystem)).isSome = true := by
  decide +kernel

end BarredExample

open ObservationLogExample BarredExample in
/-- A capture of its own provider closes the command, and is what is observed of it. -/
theorem barrier_observer_agree_closing :
    ∃ w s c o, Observing razorpaySourceSystem w s c o ∧ o.paymentOutcome.known := by
  obtain ⟨w, s, c, o, hobserving, -⟩ :=
    @observing_of_outcome razorpaySourceSystem .captured (by decide +kernel)
  obtain ⟨v, hv⟩ := Option.isSome_iff_exists.mp closing_readsOwn
  have hbars : Run.Guarded
      (transactionProgram deterministicBaselineModel getDefaultPolicy).worldStep
      (Program.worldGuard (barsByOwn deterministicBaselineModel getDefaultPolicy)) ⟨{}, [], []⟩
      (closing razorpaySourceSystem) := by
    refine (Run.execGuarded_eq_some.mp hv).1.mono fun u a hreads => ?_
    cases a with
    | advance i input => exact fun s hs => (hreads s hs).barsByOwn
    | _ => trivial
  exact ⟨w, s, c, o, hobserving, (barrier_observer_agree _ _).1 _ w hobserving.run hbars
    (.advance 0 {}) s hobserving.session commandId 10 c o hobserving.proc hobserving.command
    hobserving.barred (hobserving.claimed ▸ by decide) hobserving.observed⟩

open ObservationLogExample BarredExample in
/-- The capture of another source closes the command of a Razorpay payment, which is then
observed without an outcome. -/
theorem barrier_observer_disagree : ¬ ∀ model policy as w,
    transactionRun model policy as = some w →
      ∀ a : TransactionAction, Program.worldGuard (observesOutcome model policy) w a := by
  intro hall
  obtain ⟨w, s, c, o, hobserving, hunknown⟩ :=
    @observing_of_outcome syntheticSourceSystem .unknownInFlight (by decide +kernel)
  have hknown := hall deterministicBaselineModel getDefaultPolicy _ w hobserving.run
    (.advance 0 {}) s hobserving.session commandId 10 c o hobserving.proc hobserving.command
    hobserving.barred (hobserving.claimed ▸ by decide) hobserving.observed
  rw [hunknown] at hknown
  rcases hknown with h | h <;> cases h

end RevenueRecovery
