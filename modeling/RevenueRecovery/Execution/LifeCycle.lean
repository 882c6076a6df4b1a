import Mathlib.Data.List.Nodup
import Mathlib.Logic.Relation
import Mathlib.Tactic.SplitIfs
import RevenueRecovery.Execution.Service
import RevenueRecovery.Store

/-!
# Stage 7: the life cycle of commands in the store

What the transactions of `createCommand` and `executeStep` do to the committed command
and execution attempt tables. An execution commits the whole path from `PENDING` to a
terminal status at once, together with its attempt, so the committed tables never show
`EXECUTING`.

## Main definitions
* `CommandsEvolve` : commands keep their payload and move along legal transitions.
* `CommandStore` : statuses and execution attempts of the committed commands agree.
* `ExecutePending` : the writes of an execution in progress.
-/
namespace RevenueRecovery

/-! ## Commands by id -/

theorem Database.getCommandById_some {db : Database} {id : CommandId} {c : InterventionCommand}
    (h : db.getCommandById id = some c) : c ∈ db.commands ∧ c.commandId = id :=
  ⟨List.mem_of_find?_eq_some h, by simpa using List.find?_some h⟩

/-- Ids are unique, so a row is the one its id finds. -/
theorem Database.eq_of_getCommandById {db : Database}
    (hids : (db.commands.map (·.commandId)).Nodup) {id : CommandId} {c x : InterventionCommand}
    (h : db.getCommandById id = some c) (hx : x ∈ db.commands) (hid : x.commandId = id) :
    x = c := by
  obtain ⟨hc, hcid⟩ := Database.getCommandById_some h
  exact List.inj_on_of_nodup_map hids hx hc (hid.trans hcid.symm)

/-- The write changes the command of this id. -/
def Write.touches (id : CommandId) : Write → Prop
  | .updateCommandStatus id' _ _ _ _ => id' = id
  | _ => False

theorem Database.getCommandById_apply {db : Database} {id : CommandId} {c : InterventionCommand}
    {w : Write} (h : db.getCommandById id = some c) (hw : ¬ w.touches id) :
    (db.apply w).getCommandById id = some c := by
  cases w with
  | registerAttempt row =>
      simp only [Database.apply]
      split <;> exact h
  | insertCommand row =>
      simp only [Database.getCommandById, Database.apply, List.find?_append] at h ⊢
      rw [h]
      rfl
  | updateCommandStatus id' e target reason at' =>
      simp only [Write.touches] at hw
      simp only [Database.getCommandById, Database.apply, List.find?_map] at h ⊢
      have hsame : ((fun x : InterventionCommand => decide (x.commandId = id)) ∘
          fun x : InterventionCommand => if x.commandId = id' ∧ x.commandStatus = e then
            x.setStatus target reason at' else x) = fun x => decide (x.commandId = id) := by
        funext x
        by_cases hx : x.commandId = id' ∧ x.commandStatus = e <;> simp [hx]
      rw [hsame, h]
      have hid : c.commandId = id := by simpa using List.find?_some h
      have hne : ¬ (c.commandId = id' ∧ c.commandStatus = e) :=
        fun hc => hw (hc.1.symm.trans hid)
      simp [hne]
  | _ => exact h

/-- The rows of one id are kept by writes that do not touch it. -/
theorem Database.getCommandById_foldl {db : Database} {id : CommandId} {c : InterventionCommand}
    {ws : List Write} (h : db.getCommandById id = some c) (hws : ∀ w ∈ ws, ¬ w.touches id) :
    (ws.foldl Database.apply db).getCommandById id = some c := by
  induction ws generalizing db with
  | nil => exact h
  | cons w ws ih =>
      exact ih (Database.getCommandById_apply h (hws w List.mem_cons_self))
        fun v hv => hws v (List.mem_cons_of_mem _ hv)

/-- A command that breaks no constraint still breaks none after a write that does not
compete with it. -/
theorem Database.violates_insertCommand_apply {db : Database} {c : InterventionCommand}
    {w : Write} (h : db.violates (.insertCommand c) = false)
    (hw : w.clashes (.insertCommand c) = false) :
    (db.apply w).violates (.insertCommand c) = false := by
  cases w with
  | registerAttempt row =>
      simp only [Database.apply]
      split <;> exact h
  | insertCommand row =>
      have hc : c.sameIdentity row = false := by
        rw [Write.clashes_symm] at hw
        exact hw
      simp only [Database.violates, Database.apply, List.any_append, List.any_cons,
        List.any_nil, Bool.or_false, Bool.or_eq_false_iff] at h ⊢
      exact ⟨h, hc⟩
  | updateCommandStatus id e target reason at' =>
      simp only [Database.violates, Database.apply, List.any_map] at h ⊢
      rw [← h]
      congr 1
      funext x
      by_cases hx : x.commandId = id ∧ x.commandStatus = e <;>
        simp [hx, InterventionCommand.sameIdentity, InterventionCommand.setStatus]
  | _ => exact h

theorem Database.violates_insertCommand_foldl {db : Database} {c : InterventionCommand}
    {ws : List Write} (h : db.violates (.insertCommand c) = false)
    (hws : ∀ w ∈ ws, w.clashes (.insertCommand c) = false) :
    (ws.foldl Database.apply db).violates (.insertCommand c) = false := by
  induction ws generalizing db with
  | nil => exact h
  | cons w ws ih =>
      exact ih (Database.violates_insertCommand_apply h (hws w List.mem_cons_self))
        fun v hv => hws v (List.mem_cons_of_mem _ hv)

/-! ## Legal evolution -/

/-- Payload and identity stay, and the status moves along `LEGAL_TRANSITIONS`. -/
structure CommandEvolves (c c' : InterventionCommand) : Prop where
  payload : c' = c.setStatus c'.commandStatus c'.statusReason c'.updatedAt
  path : Relation.ReflTransGen (fun a b => canTransition a b = true)
    c.commandStatus c'.commandStatus

namespace CommandEvolves

theorem refl (c : InterventionCommand) : CommandEvolves c c := ⟨rfl, .refl⟩

theorem trans {a b c : InterventionCommand} (h : CommandEvolves a b) (h' : CommandEvolves b c) :
    CommandEvolves a c where
  payload := by
    have hc := h'.payload
    rw [h.payload] at hc
    exact hc
  path := h.path.trans h'.path

theorem setStatus (c : InterventionCommand) {target : CommandStatus} (reason : Option String)
    (at' : Time) (h : canTransition c.commandStatus target = true) :
    CommandEvolves c (c.setStatus target reason at') := ⟨rfl, .single h⟩

/-- A command in a terminal status does not change its status any more. -/
theorem status_eq {c c' : InterventionCommand} (h : CommandEvolves c c')
    (hterm : legalTransitions c.commandStatus = []) : c'.commandStatus = c.commandStatus := by
  rcases Relation.ReflTransGen.cases_head h.path with heq | ⟨s, hs, -⟩
  · exact heq.symm
  · simp [canTransition, hterm] at hs

end CommandEvolves

/-- Every stored command stays stored and evolves legally. -/
def CommandsEvolve (db db' : Database) : Prop :=
  ∀ c ∈ db.commands, ∃ c' ∈ db'.commands, CommandEvolves c c'

namespace CommandsEvolve

theorem refl (db : Database) : CommandsEvolve db db := fun c hc => ⟨c, hc, .refl c⟩

theorem trans {a b c : Database} (h : CommandsEvolve a b) (h' : CommandsEvolve b c) :
    CommandsEvolve a c := by
  intro x hx
  obtain ⟨y, hy, hxy⟩ := h x hx
  obtain ⟨z, hz, hyz⟩ := h' y hy
  exact ⟨z, hz, hxy.trans hyz⟩

end CommandsEvolve

/-- A status update names a legal transition. -/
def Write.legal : Write → Prop
  | .updateCommandStatus _ expected target _ _ => canTransition expected target = true
  | _ => True

theorem CommandsEvolve.apply (db : Database) {w : Write} (hw : w.legal) :
    CommandsEvolve db (db.apply w) := by
  have hsame : ∀ db' : Database, db'.commands = db.commands → CommandsEvolve db db' :=
    fun db' h c hc => ⟨c, h ▸ hc, .refl c⟩
  cases w with
  | registerAttempt row =>
      simp only [Database.apply]
      split
      · exact .refl db
      · exact hsame _ rfl
  | insertCommand row => exact fun c hc => ⟨c, List.mem_append_left _ hc, .refl c⟩
  | updateCommandStatus id expected target reason at' =>
      intro c hc
      by_cases hmatch : c.commandId = id ∧ c.commandStatus = expected
      · refine ⟨c.setStatus target reason at', ?_, .setStatus c reason at' (hmatch.2 ▸ hw)⟩
        exact List.mem_map.mpr ⟨c, hc, if_pos hmatch⟩
      · exact ⟨c, List.mem_map.mpr ⟨c, hc, if_neg hmatch⟩, .refl c⟩
  | _ => exact hsame _ rfl

theorem CommandsEvolve.foldl (db : Database) {ws : List Write} (hws : ∀ w ∈ ws, w.legal) :
    CommandsEvolve db (ws.foldl Database.apply db) := by
  induction ws generalizing db with
  | nil => exact .refl db
  | cons w ws ih =>
      exact (CommandsEvolve.apply db (hws w List.mem_cons_self)).trans
        (ih _ fun v hv => hws v (List.mem_cons_of_mem _ hv))

/-! ## Statuses and execution attempts -/

/-- The execution attempts a committed status comes with. -/
def AttemptsMatch : CommandStatus → List ExecutionAttempt → Prop
  | .succeeded, rows => ∃ a, rows = [a] ∧ a.executionStatus = .success
  | .failed, rows => ∃ a, rows = [a] ∧ a.executionStatus ≠ .success
  | .executing, _ => False
  | _, rows => rows = []

/-- The execution attempts of a command. -/
def attemptsOf (db : Database) (id : CommandId) : List ExecutionAttempt :=
  db.executionAttempts.filter fun a => a.commandId = id

/-- The committed command and attempt tables agree. `C` is what the barriers established
when they let an execution start. -/
structure CommandStore (C : CommandId → Time → Prop) (db : Database) : Prop where
  ids : (db.commands.map (·.commandId)).Nodup
  attempts : ∀ c ∈ db.commands, AttemptsMatch c.commandStatus (attemptsOf db c.commandId)
  started : ∀ a ∈ db.executionAttempts, C a.commandId a.startedAt ∧
    ∃ c ∈ db.commands, c.commandId = a.commandId ∧ a.startedAt < c.expiresAt

section Store
variable {C : CommandId → Time → Prop} {db db' : Database} {id : CommandId} {t : Time}

/-- Only the command and attempt tables matter. -/
theorem CommandStore.congr (h : CommandStore C db) (hc : db'.commands = db.commands)
    (ha : db'.executionAttempts = db.executionAttempts) : CommandStore C db' where
  ids := by rw [hc]; exact h.ids
  attempts := by simpa only [hc, attemptsOf, ha] using h.attempts
  started := by rw [hc, ha]; exact h.started

/-- Inserting a pending command under a new id. -/
theorem CommandStore.insert (h : CommandStore C db) {c : InterventionCommand}
    (hstatus : c.commandStatus = .pending) (hfresh : db.violates (.insertCommand c) = false) :
    CommandStore C (db.apply (.insertCommand c)) := by
  have hnew : ∀ x ∈ db.commands, x.commandId ≠ c.commandId := by
    intro x hx heq
    simp only [Database.violates, List.any_eq_false, InterventionCommand.sameIdentity] at hfresh
    have := hfresh x hx
    simp [heq] at this
  have hnone : attemptsOf db c.commandId = [] := by
    refine List.filter_eq_nil_iff.mpr fun a ha => ?_
    obtain ⟨-, x, hx, hid, -⟩ := h.started a ha
    simpa [← hid] using hnew x hx
  refine ⟨?_, fun x hx => ?_, fun a ha => ?_⟩
  · simp only [Database.apply, List.map_append, List.map_cons, List.map_nil]
    refine List.Nodup.append h.ids (by simp) ?_
    simpa [List.disjoint_singleton] using hnew
  · rcases List.mem_append.mp hx with hx | hx
    · exact h.attempts x hx
    · have hmatch : AttemptsMatch c.commandStatus (attemptsOf db c.commandId) := by
        rw [hnone, hstatus]
        rfl
      rw [List.mem_singleton.mp hx]
      exact hmatch
  · obtain ⟨hC, x, hx, hid, hlt⟩ := h.started a ha
    exact ⟨hC, x, List.mem_append_left _ hx, hid, hlt⟩

/-- Moving a pending command to a status, with the attempts that come with it. -/
theorem CommandStore.settle (h : CommandStore C db) {c : InterventionCommand}
    (hget : db.getCommandById id = some c) (hpending : c.commandStatus = .pending)
    {target : CommandStatus} {reason : Option String} {at' : Time}
    {extra : List ExecutionAttempt}
    (hc : db'.commands = db.commands.map fun x =>
      if x.commandId = id then x.setStatus target reason at' else x)
    (ha : db'.executionAttempts = db.executionAttempts ++ extra)
    (hextra : ∀ a ∈ extra, a.commandId = id ∧ C id a.startedAt ∧ a.startedAt < c.expiresAt)
    (hmatch : AttemptsMatch target extra) : CommandStore C db' := by
  obtain ⟨hmem, hid⟩ := Database.getCommandById_some hget
  have hbefore : attemptsOf db id = [] := by
    have := h.attempts c hmem
    rwa [hpending, hid] at this
  have hsplit : ∀ id', attemptsOf db' id' =
      attemptsOf db id' ++ extra.filter fun a => a.commandId = id' := by
    intro id'
    simp [attemptsOf, ha, List.filter_append]
  have hids : db'.commands.map (·.commandId) = db.commands.map (·.commandId) := by
    rw [hc, List.map_map]
    refine List.map_congr_left fun x _ => ?_
    by_cases hx : x.commandId = id <;> simp [hx]
  refine ⟨by rw [hids]; exact h.ids, fun y hy => ?_, fun a hmema => ?_⟩
  · rw [hc] at hy
    obtain ⟨x, hx, rfl⟩ := List.mem_map.mp hy
    by_cases hxid : x.commandId = id
    · rw [if_pos hxid, InterventionCommand.commandStatus_setStatus,
        InterventionCommand.commandId_setStatus, hxid, hsplit, hbefore, List.nil_append,
        List.filter_eq_self.mpr fun a hae => by simpa using (hextra a hae).1]
      exact hmatch
    · rw [if_neg hxid, hsplit, List.filter_eq_nil_iff.mpr, List.append_nil]
      · exact h.attempts x hx
      · intro a hae
        simpa [(hextra a hae).1] using Ne.symm hxid
  · -- the row that justifies an attempt survives under its id and expiry
    have hkeep : ∀ x ∈ db.commands, ∃ y ∈ db'.commands,
        y.commandId = x.commandId ∧ y.expiresAt = x.expiresAt := by
      intro x hx
      refine ⟨_, hc ▸ List.mem_map_of_mem hx, ?_⟩
      by_cases hxid : x.commandId = id <;> simp [hxid]
    rw [ha] at hmema
    rcases List.mem_append.mp hmema with hold | hnew
    · obtain ⟨hC, x, hx, hxid, hlt⟩ := h.started a hold
      obtain ⟨y, hy, hyid, hyexp⟩ := hkeep x hx
      exact ⟨hC, y, hy, hyid.trans hxid, hyexp ▸ hlt⟩
    · obtain ⟨haid, hC, hlt⟩ := hextra a hnew
      obtain ⟨y, hy, hyid, hyexp⟩ := hkeep c hmem
      exact ⟨haid ▸ hC, y, hy, hyid.trans (hid.trans haid.symm), hyexp ▸ hlt⟩

end Store

/-! ## The barriers -/

/-- What the pre-execution barriers decide, and on which command. -/
theorem executeCheck_spec {r : Reads} {id : CommandId} {t : Time} {next : ExecuteProc}
    (h : executeCheck r id t = .ok next) :
    ∃ c, (r.db 0).getCommandById id = some c ∧
      ((c.commandStatus ≠ .pending ∧ next = .done) ∨
        (c.commandStatus = .pending ∧ c.expiresAt ≤ t ∧
          next = .close .expired "COMMAND_EXPIRED_BEFORE_DISPATCH") ∨
        (c.commandStatus = .pending ∧ t < c.expiresAt ∧
          checkTerminalEventExistsBefore (r.db 2) c.paymentAttemptId t = true ∧
          next = .close .notNeeded "TERMINAL_OUTCOME_ALREADY_INGESTED") ∨
        (c.commandStatus = .pending ∧ t < c.expiresAt ∧
          checkTerminalEventExistsBefore (r.db 2) c.paymentAttemptId t = false ∧
          next = .claim)) := by
  unfold executeCheck at h
  cases hget : (r.db 0).getCommandById id with
  | none => simp [hget, throw, throwThe, MonadExceptOf.throw] at h
  | some c =>
      refine ⟨c, rfl, ?_⟩
      simp only [hget, bind, Except.bind] at h
      split at h
      · cases h
      · by_cases hpending : c.commandStatus = .pending
        · have hlegal : validateTransition c.commandStatus .expired = .ok () ∧
              validateTransition c.commandStatus .notNeeded = .ok () ∧
              validateTransition c.commandStatus .executing = .ok () := by
            rw [hpending]
            exact ⟨rfl, rfl, rfl⟩
          simp only [hpending, ne_eq, not_true_eq_false, if_false] at h hlegal
          by_cases hexp : c.expiresAt ≤ t
          · rw [if_pos (show t ≥ c.expiresAt from hexp), hlegal.1] at h
            exact .inr (.inl ⟨hpending, hexp, by simpa [pure, Except.pure] using h.symm⟩)
          · rw [if_neg (show ¬ t ≥ c.expiresAt from hexp)] at h
            have hlt := not_le.mp hexp
            cases hterm : checkTerminalEventExistsBefore (r.db 2) c.paymentAttemptId t with
            | true =>
                rw [hterm, if_pos rfl, hlegal.2.1] at h
                exact .inr (.inr (.inl ⟨hpending, hlt, rfl,
                  by simpa [pure, Except.pure] using h.symm⟩))
            | false =>
                rw [hterm, if_neg (by simp), hlegal.2.2] at h
                exact .inr (.inr (.inr ⟨hpending, hlt, rfl,
                  by simpa [pure, Except.pure] using h.symm⟩))
        · rw [if_pos hpending] at h
          exact .inl ⟨hpending, by simpa [pure, Except.pure] using h.symm⟩

/-! ## An execution in progress -/

/-- The committed command is pending. -/
def Claimable (db : Database) (id : CommandId) : Prop :=
  ∃ c, db.getCommandById id = some c ∧ c.commandStatus = .pending

/-- The committed command is pending and the barriers let it start at `t`. -/
def Cleared (C : CommandId → Time → Prop) (db : Database) (id : CommandId) (t : Time) : Prop :=
  ∃ c, db.getCommandById id = some c ∧ c.commandStatus = .pending ∧ t < c.expiresAt ∧ C id t

def claimWrite (id : CommandId) (t : Time) : Write :=
  .updateCommandStatus id .pending .executing none t

def finalWrite (id : CommandId) (t : Time) (res : ExecutionResult) : Write :=
  .updateCommandStatus id .executing (finalStatus res) (finalReason res) (attemptEnd t res)

/-- The attempt row of an execution. -/
def RecordsExecution (a : ExecutionAttempt) (id : CommandId) (t : Time) (res : ExecutionResult) :
    Prop :=
  a.commandId = id ∧ a.startedAt = t ∧ a.executionStatus = res.status

/-- The uncommitted writes of an execution, by where it stands. -/
inductive ExecutePending (C : CommandId → Time → Prop) (db : Database) (id : CommandId)
    (t : Time) : ExecuteProc → List Write → Prop
  | start : ExecutePending C db id t .start []
  | check : ExecutePending C db id t .check []
  | close {target reason} (hclaim : Claimable db id)
      (htarget : target = .expired ∨ target = .notNeeded) :
      ExecutePending C db id t (.close target reason) []
  | claim (hclear : Cleared C db id t) : ExecutePending C db id t .claim []
  | dispatch (hclear : Cleared C db id t) : ExecutePending C db id t .dispatch [claimWrite id t]
  | running {cmd} (hclear : Cleared C db id t) (hid : cmd.commandId = id) :
      ExecutePending C db id t (.running cmd) [claimWrite id t]
  | finalize {a res} (hclear : Cleared C db id t) (ha : RecordsExecution a id t res) :
      ExecutePending C db id t (.finalize res) [claimWrite id t, .insertExecutionAttempt a]
  | returned : ExecutePending C db id t .done []
  | closed {target reason} (hclaim : Claimable db id)
      (htarget : target = .expired ∨ target = .notNeeded) :
      ExecutePending C db id t .done [.updateCommandStatus id .pending target reason t]
  | executed {a res} (hclear : Cleared C db id t) (ha : RecordsExecution a id t res) :
      ExecutePending C db id t .done
        [claimWrite id t, .insertExecutionAttempt a, finalWrite id t res]

section Pending
variable {C : CommandId → Time → Prop} {db db' : Database} {id : CommandId} {t : Time}
  {p : ExecuteProc} {ws : List Write}

/-- The assumptions on the committed command survive what keeps its row. -/
theorem ExecutePending.mono (h : ExecutePending C db id t p ws)
    (hkeep : ∀ c, db.getCommandById id = some c → db'.getCommandById id = some c) :
    ExecutePending C db' id t p ws := by
  have hclaim : Claimable db id → Claimable db' id :=
    fun ⟨c, hc, hs⟩ => ⟨c, hkeep c hc, hs⟩
  have hclear : Cleared C db id t → Cleared C db' id t :=
    fun ⟨c, hc, hs⟩ => ⟨c, hkeep c hc, hs⟩
  cases h with
  | start => exact .start
  | check => exact .check
  | close h ht => exact .close (hclaim h) ht
  | claim h => exact .claim (hclear h)
  | dispatch h => exact .dispatch (hclear h)
  | running h hid => exact .running (hclear h) hid
  | finalize h ha => exact .finalize (hclear h) ha
  | returned => exact .returned
  | closed h ht => exact .closed (hclaim h) ht
  | executed h ha => exact .executed (hclear h) ha

/-- Nothing is written before the barriers. -/
theorem ExecutePending.eq_nil (h : ExecutePending C db id t p ws)
    (hp : p = .start ∨ p = .check) : ws = [] := by
  cases h <;> simp_all

theorem ExecutePending.legal (h : ExecutePending C db id t p ws) : ∀ w ∈ ws, w.legal := by
  have hfinal : ∀ res, (finalWrite id t res).legal := by
    intro res
    simp only [finalWrite, Write.legal, finalStatus]
    split <;> rfl
  have hclosed : ∀ {target : CommandStatus}, target = .expired ∨ target = .notNeeded →
      canTransition .pending target = true := by
    rintro _ (rfl | rfl) <;> rfl
  cases h with
  | closed _ ht => simpa [Write.legal] using hclosed ht
  | executed =>
      have hclaim : (claimWrite id t).legal := rfl
      simp only [List.mem_cons, List.not_mem_nil, or_false, forall_eq_or_imp, forall_eq]
      exact ⟨hclaim, trivial, hfinal _⟩
  | _ => simp [claimWrite, Write.legal, canTransition, legalTransitions]

/-- An execution touches its own command only. -/
theorem ExecutePending.touches (h : ExecutePending C db id t p ws) {id' : CommandId}
    (hne : id' ≠ id) : ∀ w ∈ ws, ¬ w.touches id' := by
  cases h <;> simp [claimWrite, finalWrite, Write.touches, hne.symm]

/-- Two updates of a pending command, claim and final status, act as one. -/
theorem commands_executed {c : InterventionCommand}
    (hids : (db.commands.map (·.commandId)).Nodup)
    (hget : db.getCommandById id = some c) (hpending : c.commandStatus = .pending)
    (a : ExecutionAttempt) (res : ExecutionResult) :
    ([claimWrite id t, .insertExecutionAttempt a, finalWrite id t res].foldl Database.apply
      db).commands = db.commands.map fun x => if x.commandId = id then
        x.setStatus (finalStatus res) (finalReason res) (attemptEnd t res) else x := by
  simp only [List.foldl_cons, List.foldl_nil, Database.apply, claimWrite, finalWrite,
    List.map_map]
  refine List.map_congr_left fun x hx => ?_
  by_cases hxid : x.commandId = id
  · obtain rfl := Database.eq_of_getCommandById hids hget hx hxid
    simp [hxid, hpending]
  · simp [hxid]

theorem commands_closed {c : InterventionCommand}
    (hids : (db.commands.map (·.commandId)).Nodup)
    (hget : db.getCommandById id = some c) (hpending : c.commandStatus = .pending)
    (target : CommandStatus) (reason : Option String) :
    (db.apply (.updateCommandStatus id .pending target reason t)).commands =
      db.commands.map fun x => if x.commandId = id then x.setStatus target reason t else x := by
  simp only [Database.apply]
  refine List.map_congr_left fun x hx => ?_
  by_cases hxid : x.commandId = id
  · obtain rfl := Database.eq_of_getCommandById hids hget hx hxid
    simp [hxid, hpending]
  · simp [hxid]

/-- Committing a finished execution keeps the command and attempt tables in agreement. -/
theorem ExecutePending.commit (hstore : CommandStore C db)
    (h : ExecutePending C db id t .done ws) : CommandStore C (ws.foldl Database.apply db) := by
  cases h with
  | returned => exact hstore
  | closed hclaim htarget =>
      obtain ⟨c, hget, hpending⟩ := hclaim
      refine hstore.settle hget hpending
        (commands_closed hstore.ids hget hpending _ _) (List.append_nil _).symm (by simp) ?_
      rcases htarget with rfl | rfl <;> rfl
  | @executed a res hclear ha =>
      obtain ⟨c, hget, hpending, hlt, hC⟩ := hclear
      obtain ⟨haid, hat, hstatus⟩ := ha
      have hrows : ([claimWrite id t, .insertExecutionAttempt a, finalWrite id t res].foldl
          Database.apply db).executionAttempts = db.executionAttempts ++ [a] := rfl
      refine hstore.settle hget hpending (commands_executed hstore.ids hget hpending a res)
        hrows (by simp [haid, hat, hC, hlt]) ?_
      unfold finalStatus
      split
      · rename_i hok
        exact ⟨a, rfl, hstatus.trans hok⟩
      · rename_i hbad
        exact ⟨a, rfl, fun hok => hbad (hstatus.symm.trans hok)⟩

/-- What a step of an execution can be: it locks the command, writes what its next state
accounts for, or calls the executor. -/
inductive ExecuteStepped (C : CommandId → Time → Prop) (db : Database) (id : CommandId)
    (t : Time) (ws : List Write) :
    ExecuteProc → Transaction.Outcome Write LockKey InterventionCommand ExecuteProc → Prop
  | locked : ExecuteStepped C db id t ws .start (.lock (.command id) .check)
  | wrote {p vs next} (hp : p ≠ .start) (hstart : next ≠ .start) (hcheck : next ≠ .check)
      (hdispatch : next = .dispatch → p = .claim)
      (hpend : ExecutePending C db id t next (ws ++ vs)) :
      ExecuteStepped C db id t ws p (.write vs next)
  | called {cmd} (hid : cmd.commandId = id)
      (hpend : ExecutePending C db id t (.running cmd) ws) :
      ExecuteStepped C db id t ws .dispatch (.call cmd (.running cmd))

/-- A step of an execution keeps its account of the uncommitted writes. The barriers read
the command as it is committed, and establish `C` when they let the execution start. -/
theorem ExecutePending.step (h : ExecutePending C db id t p ws) {r : Reads} {now : Database}
    {result : Option ExecutionResult}
    {o : Transaction.Outcome Write LockKey InterventionCommand ExecuteProc}
    (hstep : executeStep id t r now result p = .ok o)
    (hnow : now = ws.foldl Database.apply db)
    (hread : p = .check → ∀ c, (r.db 0).getCommandById id = some c →
      db.getCommandById id = some c)
    (hC : p = .check → executeCheck r id t = .ok .claim → C id t) :
    ExecuteStepped C db id t ws p o := by
  have hkeep : ∀ {q}, ExecutePending C db id t q ws → ExecutePending C db id t q (ws ++ []) :=
    fun hq => by rwa [List.append_nil]
  cases h with
  | start => cases hstep; exact .locked
  | check =>
      simp only [executeStep] at hstep
      cases hcheck : executeCheck r id t with
      | error e => simp [hcheck, Except.map] at hstep
      | ok next =>
          obtain rfl : o = .write [] next := by simpa [hcheck, Except.map] using hstep.symm
          obtain ⟨c, hget, hcases⟩ := executeCheck_spec hcheck
          have hcommitted := hread rfl c hget
          rcases hcases with ⟨-, rfl⟩ | ⟨hpending, -, rfl⟩ | ⟨hpending, -, -, rfl⟩ |
            ⟨hpending, hlt, -, rfl⟩
          · exact .wrote (by simp) (by simp) (by simp) (by simp) .returned
          · exact .wrote (by simp) (by simp) (by simp) (by simp)
              (.close ⟨c, hcommitted, hpending⟩ (.inl rfl))
          · exact .wrote (by simp) (by simp) (by simp) (by simp)
              (.close ⟨c, hcommitted, hpending⟩ (.inr rfl))
          · exact .wrote (by simp) (by simp) (by simp) (by simp)
              (.claim ⟨c, hcommitted, hpending, hlt, hC rfl hcheck⟩)
  | close hclaim htarget =>
      cases hstep
      exact .wrote (by simp) (by simp) (by simp) (by simp) (.closed hclaim htarget)
  | claim hclear =>
      have hfound : statusIs now id .pending = true := by
        obtain ⟨c, hget, hpending, -⟩ := hclear
        obtain ⟨hmem, hid⟩ := Database.getCommandById_some hget
        subst hnow
        exact List.any_eq_true.mpr ⟨c, hmem, by simp [hid, hpending]⟩
      simp only [executeStep, hfound, if_true, Except.ok.injEq] at hstep
      subst hstep
      exact .wrote (by simp) (by simp) (by simp) (by simp) (.dispatch hclear)
  | dispatch hclear =>
      simp only [executeStep] at hstep
      split at hstep
      · cases hstep
      · rename_i cmd hget
        cases hstep
        have hid := (Database.getCommandById_some hget).2
        exact .called hid (.running hclear hid)
  | running hclear hid =>
      simp only [executeStep] at hstep
      split at hstep
      · cases hstep
      · cases hstep
        exact .wrote (by simp) (by simp) (by simp) (by simp) (.finalize hclear ⟨hid, rfl, rfl⟩)
  | finalize hclear ha =>
      cases hstep
      exact .wrote (by simp) (by simp) (by simp) (by simp) (.executed hclear ha)
  | returned => cases hstep; exact .wrote (by simp) (by simp) (by simp) (by simp) .returned
  | closed hclaim htarget =>
      cases hstep
      exact .wrote (by simp) (by simp) (by simp) (by simp) (hkeep (.closed hclaim htarget))
  | executed hclear ha =>
      cases hstep
      exact .wrote (by simp) (by simp) (by simp) (by simp) (hkeep (.executed hclear ha))

end Pending

end RevenueRecovery
