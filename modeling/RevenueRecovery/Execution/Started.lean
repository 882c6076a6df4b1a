import RevenueRecovery.Execution.LifeCycle
import RevenueRecovery.Lib.Follow
import RevenueRecovery.Services.Transactions

/-!
# Stage 7: a command with an execution attempt has started

Whatever transactions run, every stored execution attempt is of a command whose status is
past its claim (`transactionRun_started`). An execution holds its command's lock until its
transaction ends, so no other transaction moves the status meanwhile.

## Main definitions
* `CommandStatus.started` : the statuses after the claim.
* `Started` : every execution attempt is of a started command.
-/
namespace RevenueRecovery

open Transaction

/-- The status is past the claim of the command. -/
def CommandStatus.started : CommandStatus → Bool
  | .executing | .succeeded | .failed => true
  | .pending | .expired | .notNeeded => false

/-- The store has a started command of this id. -/
def StartedCommand (db : Database) (id : CommandId) : Prop :=
  ∃ c ∈ db.commands, c.commandId = id ∧ c.commandStatus.started = true

/-- Every execution attempt is of a started command. -/
def Started (db : Database) : Prop := ∀ a ∈ db.executionAttempts, StartedCommand db a.commandId

/-! ## Writes -/

section Writes
variable {db db' : Database} {id : CommandId} {w : Write} {ws : List Write}

theorem started_of_canTransition {s t : CommandStatus} (hs : s.started = true)
    (h : canTransition s t = true) : t.started = true := by
  cases s <;> cases t <;> simp_all [canTransition, legalTransitions, CommandStatus.started]

/-- A started command stays started along legal transitions. -/
theorem started_of_path {s t : CommandStatus}
    (h : Relation.ReflTransGen (fun a b => canTransition a b = true) s t)
    (hs : s.started = true) : t.started = true := by
  induction h with
  | refl => exact hs
  | tail _ hstep ih => exact started_of_canTransition ih hstep

theorem StartedCommand.foldl (h : StartedCommand db id) (hws : ∀ w ∈ ws, w.legal) :
    StartedCommand (ws.foldl Database.apply db) id := by
  obtain ⟨c, hc, hid, hstarted⟩ := h
  obtain ⟨c', hc', hevolves⟩ := CommandsEvolve.foldl db hws c hc
  refine ⟨c', hc', ?_, started_of_path hevolves.path hstarted⟩
  rw [hevolves.payload]
  exact hid

/-- The later store has the rows of the command unchanged. -/
def KeepsRows (id : CommandId) (db db' : Database) : Prop :=
  ∀ c ∈ db.commands, c.commandId = id → c ∈ db'.commands

theorem StartedCommand.mono (h : StartedCommand db id) (hkeeps : KeepsRows id db db') :
    StartedCommand db' id := by
  obtain ⟨c, hc, hid, hstarted⟩ := h
  exact ⟨c, hkeeps c hc hid, hid, hstarted⟩

/-- Writes that do not touch a command keep its rows. -/
theorem KeepsRows.foldl (hws : ∀ w ∈ ws, ¬ w.touches id) :
    KeepsRows id db (ws.foldl Database.apply db) := by
  induction ws generalizing db with
  | nil => exact fun c hc _ => hc
  | cons w ws ih =>
      intro c hc hid
      refine ih (fun v hv => hws v (List.mem_cons_of_mem _ hv)) c ?_ hid
      have hw := hws w List.mem_cons_self
      cases w with
      | registerAttempt row =>
          simp only [Database.apply]
          split <;> exact hc
      | insertCommand row => exact List.mem_append_left _ hc
      | updateCommandStatus id' expected target reason t =>
          have hne : ¬ (c.commandId = id' ∧ c.commandStatus = expected) :=
            fun h => hw (h.1.symm.trans hid)
          exact List.mem_map.mpr ⟨c, hc, if_neg hne⟩
      | _ => exact hc

theorem KeepsRows.trans {db'' : Database} (h : KeepsRows id db db') (h' : KeepsRows id db' db'') :
    KeepsRows id db db'' := fun c hc hid => h' c (h c hc hid) hid

/-- The same writes keep the rows that were the same before. -/
theorem KeepsRows.foldl_mono (h : KeepsRows id db db') :
    KeepsRows id (ws.foldl Database.apply db) (ws.foldl Database.apply db') := by
  induction ws generalizing db db' with
  | nil => exact h
  | cons w ws ih =>
      refine ih fun c hc hid => ?_
      cases w with
      | registerAttempt row =>
          simp only [Database.apply] at hc ⊢
          split <;> split at hc <;> exact h c hc hid
      | insertCommand row =>
          rcases List.mem_append.mp hc with hc | hc
          · exact List.mem_append_left _ (h c hc hid)
          · exact List.mem_append_right _ hc
      | updateCommandStatus id' expected target reason t =>
          obtain ⟨x, hx, rfl⟩ := List.mem_map.mp hc
          refine List.mem_map_of_mem (h x hx ?_)
          split_ifs at hid <;> exact hid
      | _ => exact h c hc hid

/-- Legal writes that record attempts of started commands keep the invariant. -/
theorem Started.foldl (h : Started db) (hlegal : ∀ w ∈ ws, w.legal)
    (hnew : ∀ a, .insertExecutionAttempt a ∈ ws → StartedCommand db a.commandId) :
    Started (ws.foldl Database.apply db) := by
  intro a ha
  rw [Database.executionAttempts_foldl] at ha
  rcases List.mem_append.mp ha with ha | ha
  · exact (h a ha).foldl hlegal
  · exact (hnew a (mem_filterMap_executionAttempt?.mp ha)).foldl hlegal

end Writes

/-! ## One execution -/

/-- The write is part of the execution of the command. -/
def Write.executes (id : CommandId) (w : Write) : Prop :=
  w.touches id ∨ ∃ a, w = .insertExecutionAttempt a ∧ a.commandId = id

/-- What an execution past its lock knows: its command is started once claimed. -/
def ExecuteStarted (db : Database) (id : CommandId) : ExecuteProc → Prop
  | .close target _ => canTransition .pending target = true
  | .dispatch | .finalize _ => StartedCommand db id
  | .running cmd => StartedCommand db id ∧ cmd.commandId = id
  | _ => True

theorem ExecuteStarted.mono {db db' : Database} {id : CommandId} {q : ExecuteProc}
    (h : ExecuteStarted db id q) (hdb : StartedCommand db id → StartedCommand db' id) :
    ExecuteStarted db' id q := by
  cases q with
  | dispatch => exact hdb h
  | finalize => exact hdb h
  | running cmd => exact ⟨hdb h.1, h.2⟩
  | _ => exact h

/-- A write step of an execution is legal, is of its command, and knows its result. -/
theorem ExecuteStarted.write {now : Database} {id : CommandId} {t : Time} {r : Reads}
    {result : Option ExecutionResult} {q next : ExecuteProc} {ws : List Write}
    (h : ExecuteStarted now id q)
    (hstep : executeStep id t r now result q = .ok (.write ws next)) :
    (∀ w ∈ ws, w.legal) ∧ (∀ w ∈ ws, ∀ id', w.executes id' → id' = id) ∧ q ≠ .start ∧
      (∀ a, .insertExecutionAttempt a ∈ ws → StartedCommand now a.commandId) ∧
      ExecuteStarted (ws.foldl Database.apply now) id next := by
  cases q with
  | start => simp [executeStep] at hstep
  | check =>
      simp only [executeStep] at hstep
      cases hc : executeCheck r id t with
      | error e => simp [hc, Except.map] at hstep
      | ok q =>
          obtain ⟨rfl, rfl⟩ : [] = ws ∧ q = next := by simpa [hc, Except.map] using hstep
          obtain ⟨c, -, hcases⟩ := executeCheck_spec hc
          refine ⟨by simp, by simp, by simp, by simp, ?_⟩
          rcases hcases with ⟨-, rfl⟩ | ⟨-, -, rfl⟩ | ⟨-, -, -, rfl⟩ | ⟨-, -, -, rfl⟩ <;>
            trivial
  | close target reason =>
      obtain ⟨rfl, rfl⟩ := Outcome.write.inj (Except.ok.inj hstep)
      have hlegal : (Write.updateCommandStatus id .pending target (some reason) t).legal := h
      refine ⟨by simpa using hlegal, ?_, by simp, by simp, trivial⟩
      simp [Write.executes, Write.touches, eq_comm]
  | claim =>
      obtain ⟨rfl, rfl⟩ := Outcome.write.inj (Except.ok.inj hstep)
      refine ⟨by simp [Write.legal, canTransition, legalTransitions], ?_, by simp, by simp, ?_⟩
      · simp [Write.executes, Write.touches, eq_comm]
      · split
        · rename_i hfound
          obtain ⟨c, hc, hmatch⟩ := List.any_eq_true.mp hfound
          simp only [Bool.and_eq_true, beq_iff_eq] at hmatch
          exact ⟨_, List.mem_map_of_mem hc, by simp [hmatch], by simp [hmatch, CommandStatus.started]⟩
        · trivial
  | dispatch =>
      simp only [executeStep] at hstep
      split at hstep <;> cases hstep
  | running cmd =>
      simp only [executeStep] at hstep
      split at hstep
      · cases hstep
      · cases hstep
        obtain ⟨hstarted, hid⟩ := h
        refine ⟨by simp [Write.legal], ?_, by simp, ?_, ?_⟩
        · simp [Write.executes, Write.touches, newExecutionAttempt, hid, eq_comm]
        · simpa [newExecutionAttempt, hid] using hstarted
        · exact hstarted.foldl (by simp [Write.legal])
  | finalize res =>
      obtain ⟨rfl, rfl⟩ := Outcome.write.inj (Except.ok.inj hstep)
      refine ⟨?_, ?_, by simp, by simp, trivial⟩
      · simp only [List.mem_singleton, forall_eq, Write.legal, finalStatus]
        split <;> rfl
      · simp [Write.executes, Write.touches, eq_comm]
  | done =>
      obtain ⟨rfl, rfl⟩ := Outcome.write.inj (Except.ok.inj hstep)
      exact ⟨by simp, by simp, by simp, by simp, trivial⟩

/-- An execution locks its command first, and nothing else. -/
theorem executeStep_lock {now : Database} {id : CommandId} {t : Time} {r : Reads}
    {result : Option ExecutionResult} {q next : ExecuteProc} {key : LockKey}
    (h : executeStep id t r now result q = .ok (.lock key next)) :
    key = .command id ∧ next = .check := by
  cases q with
  | start => cases h; exact ⟨rfl, rfl⟩
  | check =>
      simp only [executeStep] at h
      cases hc : executeCheck r id t <;> simp [hc, Except.map] at h
  | dispatch => simp only [executeStep] at h; split at h <;> cases h
  | running cmd => simp only [executeStep] at h; split at h <;> cases h
  | _ => cases h

/-- The executor is called with the command as it was read after the claim. -/
theorem executeStep_call {now : Database} {id : CommandId} {t : Time} {r : Reads}
    {result : Option ExecutionResult} {q next : ExecuteProc} {cmd : InterventionCommand}
    (h : executeStep id t r now result q = .ok (.call cmd next)) :
    q = .dispatch ∧ next = .running cmd ∧ cmd.commandId = id := by
  cases q with
  | check =>
      simp only [executeStep] at h
      cases hc : executeCheck r id t <;> simp [hc, Except.map] at h
  | dispatch =>
      simp only [executeStep] at h
      split at h
      · cases h
      · rename_i c hget
        cases h
        exact ⟨rfl, rfl, by simpa using List.find?_some hget⟩
  | running c => simp only [executeStep] at h; split at h <;> cases h
  | _ => cases h

/-! ## The invariant -/

section Invariant
variable {model : FailurePredictionModel} {policy : InterventionPolicy} {db db' : Database}
  {s t : TransactionSession}

/-- What a connection in a call holds and knows. -/
def CallStarted (db : Database) (locks : List LockKey) : TransactionProc → Prop
  | .calling (.execute id _ q) =>
      (q ≠ .start → .command id ∈ locks) ∧ ExecuteStarted db id q
  | _ => True

/-- The view of a session shows execution attempts of started commands only, and what it
executes it has locked. -/
structure StartedSession (model : FailurePredictionModel) (policy : InterventionPolicy)
    (db : Database) (s : TransactionSession) : Prop where
  view : Started ((transactionProgram model policy).view db s)
  legal : ∀ w ∈ s.pending, w.legal
  locked : ∀ w ∈ s.pending, ∀ id, w.executes id → .command id ∈ s.locks
  call : CallStarted ((transactionProgram model policy).view db s) s.locks s.proc

theorem StartedSession.fresh (h : Started db) :
    StartedSession model policy db (.fresh .idle) := ⟨h, by simp, by simp, trivial⟩

/-- The invariant survives a change of the committed store that keeps the rows the session
has locked. -/
theorem StartedSession.rebase (h : StartedSession model policy db s) (hdb' : Started db')
    (hkeeps : ∀ id, .command id ∈ s.locks → KeepsRows id db db')
    (hattempts : ∀ a ∈ db'.executionAttempts, .command a.commandId ∈ s.locks →
      a ∈ db.executionAttempts) : StartedSession model policy db' s := by
  have hview : ∀ id, .command id ∈ s.locks →
      StartedCommand ((transactionProgram model policy).view db s) id →
      StartedCommand ((transactionProgram model policy).view db' s) id :=
    fun id hlock hstarted => hstarted.mono (hkeeps id hlock).foldl_mono
  refine ⟨fun a ha => ?_, h.legal, h.locked, ?_⟩
  · rw [transactionProgram_view, Database.executionAttempts_foldl] at ha
    by_cases hlock : .command a.commandId ∈ s.locks
    · refine hview _ hlock (h.view a ?_)
      rw [transactionProgram_view, Database.executionAttempts_foldl]
      rcases List.mem_append.mp ha with ha | ha
      · exact List.mem_append_left _ (hattempts a ha hlock)
      · exact List.mem_append_right _ ha
    · rcases List.mem_append.mp ha with ha | ha
      · exact (hdb' a ha).foldl h.legal
      · have hmem := mem_filterMap_executionAttempt?.mp ha
        exact absurd (h.locked _ hmem _ (.inr ⟨a, rfl, rfl⟩)) hlock
  · have hcall := h.call
    cases hp : s.proc with
    | idle => exact trivial
    | calling p =>
        rw [hp] at hcall
        cases p with
        | execute id t q =>
            obtain ⟨hlock, hstarted⟩ := hcall
            refine ⟨hlock, ?_⟩
            by_cases hq : q = .start
            · subst hq
              exact trivial
            · exact hstarted.mono (hview id (hlock hq))
        | _ => exact trivial

/-- A session that writes nothing keeps the invariant when its next state knows enough. -/
theorem StartedSession.next (h : StartedSession model policy db s) {s' : TransactionSession}
    (hpending : s'.pending = s.pending) (hlocks : s.locks ⊆ s'.locks)
    (hcall : CallStarted ((transactionProgram model policy).view db s) s'.locks s'.proc) :
    StartedSession model policy db s' := by
  have hview : (transactionProgram model policy).view db s' =
      (transactionProgram model policy).view db s := by
    rw [Program.view, hpending]; rfl
  refine ⟨hview ▸ h.view, hpending ▸ h.legal, fun w hw id hex => ?_, hview ▸ hcall⟩
  rw [hpending] at hw
  exact hlocks (h.locked w hw id hex)

/-- A session that writes legally, of a command it has locked, keeps the invariant. -/
theorem StartedSession.write (h : StartedSession model policy db s) {ws : List Write}
    {next : TransactionProc} (hlegal : ∀ w ∈ ws, w.legal)
    (hlocked : ∀ w ∈ ws, ∀ id, w.executes id → .command id ∈ s.locks)
    (hnew : ∀ a, .insertExecutionAttempt a ∈ ws →
      StartedCommand ((transactionProgram model policy).view db s) a.commandId)
    (hcall : CallStarted (ws.foldl Database.apply ((transactionProgram model policy).view db s))
      s.locks next) : StartedSession model policy db (s.wrote ws next) := by
  have hview : (transactionProgram model policy).view db (s.wrote ws next) =
      ws.foldl Database.apply ((transactionProgram model policy).view db s) :=
    view_wrote_eq_foldl rfl db s ws next
  refine ⟨hview ▸ h.view.foldl hlegal hnew, fun w hw => ?_, fun w hw id hex => ?_, hview ▸ hcall⟩
  · exact (List.mem_append.mp hw).elim (h.legal w) (hlegal w)
  · exact (List.mem_append.mp hw).elim (h.locked w · id hex) (hlocked w · id hex)

/-- A session keeps the rows of a command it has not locked. -/
theorem StartedSession.keepsRows (h : StartedSession model policy db s) {id : CommandId}
    (hfree : .command id ∉ s.locks) :
    KeepsRows id db ((transactionProgram model policy).view db s) :=
  .foldl fun w hw htouch => hfree (h.locked w hw id (.inl htouch))

/-- The writes of a call that is no execution execute nothing. -/
theorem CallStepped.not_executes {input : CallInput} {reads : ℕ → Database} {now : Database}
    {p next : CallProc} {ws : List Write}
    (h : CallStepped model policy input reads now p (.write ws next))
    (hp : ∀ id t q, p ≠ .execute id t q) :
    ∀ w ∈ ws, w.legal ∧ (∀ id, ¬ w.executes id) ∧ ∀ a, w ≠ .insertExecutionAttempt a := by
  intro w hw
  have horigin := h.origin hw
  cases w with
  | updateCommandStatus id expected target reason t =>
      obtain ⟨t', q, rfl⟩ := horigin
      exact absurd rfl (hp _ _ _)
  | insertExecutionAttempt a =>
      obtain ⟨id, t', q, rfl⟩ := horigin
      exact absurd rfl (hp _ _ _)
  | _ => exact ⟨trivial, by simp [Write.executes, Write.touches], by simp⟩

theorem startedInvariant (model : FailurePredictionModel) (policy : InterventionPolicy) :
    (transactionProgram model policy).Invariant (fun _ _ _ => True) Started
      (StartedSession model policy) where
  arrive {db x ws ps} hG harr _ := by
    obtain ⟨rfl, rfl⟩ := transactionProgram_arrive harr
    have hlegal : ∀ w ∈ x.effect.1, w.legal := by
      cases x <;> simp [TransactionArrival.effect, Write.legal]
    have hnone : ∀ a, .insertExecutionAttempt a ∉ x.effect.1 := by
      cases x <;> simp [TransactionArrival.effect]
    have hattempts : ∀ a ∈ (x.effect.1.foldl Database.apply db).executionAttempts,
        a ∈ db.executionAttempts := by
      intro a ha
      rw [Database.executionAttempts_foldl] at ha
      exact (List.mem_append.mp ha).resolve_right
        fun h => hnone a (mem_filterMap_executionAttempt?.mp h)
    have hstore : Started (x.effect.1.foldl Database.apply db) :=
      hG.foldl hlegal fun a ha => absurd ha (hnone a)
    refine ⟨hstore, fun s hs _ => hs.rebase hstore (fun id _ => .foldl ?_)
      (fun a ha _ => hattempts a ha), fun p hp => ?_⟩
    · cases x <;> simp [TransactionArrival.effect, Write.touches]
    · obtain rfl : p = .idle := by cases x <;> simp_all [TransactionArrival.effect]
      exact .fresh hstore
  look _ h := h.next rfl (fun _ hk => hk) h.call
  abort hG _ := .fresh hG
  lock {db s input key next} _ h _ hstep := by
    generalize ho : Outcome.lock key next = o at hstep
    cases transactionStepped hstep with
    | requested => cases hr : input.request <;> rw [hr] at ho <;> cases ho
    | returned => cases ho
    | raised => cases ho
    | @called p o' hproc hp hcall =>
        refine h.next rfl (fun _ hk => List.mem_cons_of_mem _ hk) ?_
        cases hcall with
        | @executing id t q o'' hq hex =>
            cases o'' with
            | lock key' q' =>
                cases ho
                obtain ⟨rfl, rfl⟩ := executeStep_lock hex
                exact ⟨fun _ => List.mem_cons_self, trivial⟩
            | _ => cases ho
        | predictLock => cases ho; exact trivial
        | decideLock => cases ho; exact trivial
        | lockedAct => cases ho; exact trivial
        | attributeLock => cases ho; exact trivial
        | _ => cases ho
  write {db s input ws next} _ h _ hstep _ := by
    generalize ho : Outcome.write ws next = o at hstep
    cases transactionStepped hstep with
    | requested =>
        cases hr : input.request <;> rw [hr] at ho <;> cases ho <;>
          exact h.write (by simp [Write.legal]) (by simp [Write.executes, Write.touches])
            (by simp) (by first | trivial | exact ⟨by simp, trivial⟩)
    | returned => cases ho; exact h.write (by simp) (by simp) (by simp) trivial
    | raised => cases ho
    | @called p o' hproc hp hcall =>
        cases o' with
        | write vs next' =>
            obtain ⟨rfl, rfl⟩ := Outcome.write.inj ho
            by_cases hexec : ∃ id t q, p = .execute id t q
            · obtain ⟨id, t, q, rfl⟩ := hexec
              have hknown := h.call
              rw [hproc] at hknown
              generalize hout : Outcome.write ws next' = out at hcall
              cases hcall with
              | executeDone =>
                  cases hout
                  exact h.write (by simp) (by simp) (by simp) trivial
              | @executing _ _ _ o'' hq hex =>
                  cases o'' with
                  | write vs q' =>
                      obtain ⟨rfl, rfl⟩ := Outcome.write.inj hout
                      obtain ⟨hlegal, hown, hstart, hnew, hnext⟩ := hknown.2.write hex
                      refine h.write hlegal (fun w hw id' hid' => ?_) hnew
                        ⟨fun _ => hknown.1 hstart, hnext⟩
                      rw [hown w hw id' hid']
                      exact hknown.1 hstart
                  | _ => cases hout
            · have hnot := hcall.not_executes fun id t q hq => hexec ⟨id, t, q, hq⟩
              refine h.write (fun w hw => (hnot w hw).1)
                (fun w hw id hid => absurd hid ((hnot w hw).2.1 id))
                (fun a ha => absurd rfl ((hnot _ ha).2.2 a)) ?_
              generalize hout : Outcome.write ws next' = out at hcall
              cases hcall with
              | executeDone => exact absurd ⟨_, _, _, rfl⟩ hexec
              | executing => exact absurd ⟨_, _, _, rfl⟩ hexec
              | predictLock => cases hout
              | decideLock => cases hout
              | lockedAct => cases hout
              | attributeLock => cases hout
              | _ => cases hout; exact trivial
        | _ => cases ho
  call {db s input effect next} _ h _ hstep := by
    generalize ho : Outcome.call effect next = o at hstep
    cases transactionStepped hstep with
    | requested => cases hr : input.request <;> rw [hr] at ho <;> cases ho
    | returned => cases ho
    | raised => cases ho
    | @called p o' hproc hp hcall =>
        have hknown := h.call
        rw [hproc] at hknown
        refine h.next rfl (fun _ hk => hk) ?_
        cases hcall with
        | @executing id t q o'' hq hex =>
            cases o'' with
            | call cmd q' =>
                cases ho
                obtain ⟨rfl, rfl, hid⟩ := executeStep_call hex
                exact ⟨fun _ => hknown.1 (by simp), hknown.2, hid⟩
            | _ => cases ho
        | _ => cases ho
  rollback {db s input next} hG _ _ hstep := by
    generalize ho : Outcome.rollback next = o at hstep
    cases transactionStepped hstep with
    | requested =>
        cases hr : input.request <;> rw [hr] at ho <;> cases ho
        exact .fresh hG
    | returned => cases ho
    | raised => cases ho; exact .fresh hG
    | @called p o' hproc hp hcall =>
        have hinside := hcall.inside
        cases o' <;> cases ho
        exact absurd rfl (hinside.2 _)
  commit {db s input next} hG h _ hstep := by
    have hnext : next = .idle := by
      generalize ho : Outcome.commit next = o at hstep
      cases transactionStepped hstep with
      | requested =>
          cases hr : input.request <;> rw [hr] at ho <;> cases ho
          rfl
      | returned => cases ho
      | raised => cases ho
      | @called p o' hproc hp hcall =>
          have hinside := hcall.inside
          cases o' <;> cases ho
          exact absurd rfl (hinside.1 _)
    subst hnext
    refine ⟨h.view, .fresh h.view, fun t ht hapart =>
      ht.rebase h.view (fun id hlock => h.keepsRows fun hmem => hapart.locks _ hmem hlock) ?_⟩
    · intro a ha hlock
      rw [transactionProgram_view, Database.executionAttempts_foldl] at ha
      refine (List.mem_append.mp ha).resolve_right fun hmem => ?_
      exact hapart.locks _ (h.locked _ (mem_filterMap_executionAttempt?.mp hmem) _
        (.inr ⟨a, rfl, rfl⟩)) hlock

/-- A session sees the commands it has locked as it has read them. -/
def SeesLocked (locks : List LockKey) (db db' : Database) : Prop :=
  ∀ id, .command id ∈ locks → KeepsRows id db db'

theorem startedStable (model : FailurePredictionModel) (policy : InterventionPolicy) :
    (transactionProgram model policy).Stable Started (StartedSession model policy) SeesLocked where
  refl _ _ _ _ _ hc _ := hc
  trans h h' id hlock := (h id hlock).trans (h' id hlock)
  arrive {db x ws ps s} _ _ harr id _ := by
    obtain ⟨rfl, -⟩ := transactionProgram_arrive harr
    have hkeeps : KeepsRows id db (x.effect.1.foldl Database.apply db) :=
      .foldl (by cases x <;> simp [TransactionArrival.effect, Write.touches])
    exact hkeeps.foldl_mono
  commit _ h _ hapart _ id hlock :=
    (h.keepsRows fun hmem => hapart.locks _ hmem hlock).foldl_mono

/-- In every reachable store, every execution attempt is of a started command. -/
theorem transactionRun_started {as : List TransactionAction} {w : TransactionWorld}
    (h : transactionRun model policy as = some w) : Started w.db :=
  ((startedInvariant model policy).exec_true (.empty (by simp [Started])) h).store

end Invariant

end RevenueRecovery
