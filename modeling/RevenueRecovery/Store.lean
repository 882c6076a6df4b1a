import Mathlib.Data.List.Pairwise
import Mathlib.Tactic.SplitIfs
import RevenueRecovery.Database
import RevenueRecovery.Lib.Transaction

/-!
# What writes keep

Rows are never removed, and only the lifecycle fields of commands change: `Keeps` relates
a store to every later one. The unique constraints hold in every committed store
(`Database.constraints`), so a row is determined by its id.

## Main definitions
* `Keeps` : a later store has the rows of the earlier one.
* `Adds` : its other rows are those some writes insert.
* `Write.conflicts` : two rows that a unique constraint does not allow together.
* `Unique` : the unique constraints hold.
-/
namespace RevenueRecovery

open Transaction

namespace InterventionCommand

@[simp] theorem commandId_setStatus (c : InterventionCommand) (s : CommandStatus)
    (r : Option String) (t : Time) : (c.setStatus s r t).commandId = c.commandId := rfl
@[simp] theorem commandStatus_setStatus (c : InterventionCommand) (s : CommandStatus)
    (r : Option String) (t : Time) : (c.setStatus s r t).commandStatus = s := rfl
@[simp] theorem expiresAt_setStatus (c : InterventionCommand) (s : CommandStatus)
    (r : Option String) (t : Time) : (c.setStatus s r t).expiresAt = c.expiresAt := rfl
@[simp] theorem setStatus_setStatus (c : InterventionCommand) (s s' : CommandStatus)
    (r r' : Option String) (t t' : Time) :
    (c.setStatus s r t).setStatus s' r' t' = c.setStatus s' r' t' := rfl
@[simp] theorem sameIdentity_setStatus_left (a b : InterventionCommand) (s : CommandStatus)
    (r : Option String) (t : Time) : (a.setStatus s r t).sameIdentity b = a.sameIdentity b := rfl
@[simp] theorem sameIdentity_setStatus_right (a b : InterventionCommand) (s : CommandStatus)
    (r : Option String) (t : Time) : a.sameIdentity (b.setStatus s r t) = a.sameIdentity b := rfl

/-- The identity and the payload of a command, which no write changes. -/
def SamePayload (c c' : InterventionCommand) : Prop :=
  c' = c.setStatus c'.commandStatus c'.statusReason c'.updatedAt

theorem SamePayload.refl (c : InterventionCommand) : SamePayload c c := rfl

theorem SamePayload.trans {a b c : InterventionCommand} (h : SamePayload a b)
    (h' : SamePayload b c) : SamePayload a c := by
  unfold SamePayload at h h' ⊢
  rw [h] at h'
  exact h'

theorem SamePayload.setStatus (c : InterventionCommand) (s : CommandStatus)
    (r : Option String) (t : Time) : SamePayload c (c.setStatus s r t) := rfl

theorem SamePayload.commandId {c c' : InterventionCommand} (h : SamePayload c c') :
    c'.commandId = c.commandId := by rw [h]; rfl
theorem SamePayload.decisionId {c c' : InterventionCommand} (h : SamePayload c c') :
    c'.decisionId = c.decisionId := by rw [h]; rfl
theorem SamePayload.sourceSystem {c c' : InterventionCommand} (h : SamePayload c c') :
    c'.sourceSystem = c.sourceSystem := by rw [h]; rfl
theorem SamePayload.paymentAttemptId {c c' : InterventionCommand} (h : SamePayload c c') :
    c'.paymentAttemptId = c.paymentAttemptId := by rw [h]; rfl

end InterventionCommand

/-! ## Later stores -/

/-- The rows of a store are rows of a later one, commands up to their lifecycle fields. -/
structure Keeps (db db' : Database) : Prop where
  events : db.events ⊆ db'.events
  predictions : db.predictions ⊆ db'.predictions
  decisions : db.decisions ⊆ db'.decisions
  commands : ∀ c ∈ db.commands, ∃ c' ∈ db'.commands, c.SamePayload c'
  executionAttempts : db.executionAttempts ⊆ db'.executionAttempts
  observations : db.observations ⊆ db'.observations
  attributions : db.attributions ⊆ db'.attributions

namespace Keeps

theorem refl (db : Database) : Keeps db db :=
  ⟨fun _ h => h, fun _ h => h, fun _ h => h, fun c h => ⟨c, h, .refl c⟩, fun _ h => h,
    fun _ h => h, fun _ h => h⟩

theorem trans {a b c : Database} (h : Keeps a b) (h' : Keeps b c) : Keeps a c where
  events := List.Subset.trans h.events h'.events
  predictions := List.Subset.trans h.predictions h'.predictions
  decisions := List.Subset.trans h.decisions h'.decisions
  commands x hx := by
    obtain ⟨y, hy, hxy⟩ := h.commands x hx
    obtain ⟨z, hz, hyz⟩ := h'.commands y hy
    exact ⟨z, hz, hxy.trans hyz⟩
  executionAttempts := List.Subset.trans h.executionAttempts h'.executionAttempts
  observations := List.Subset.trans h.observations h'.observations
  attributions := List.Subset.trans h.attributions h'.attributions

/-- A write removes nothing. -/
theorem apply (db : Database) (w : Write) : Keeps db (db.apply w) := by
  cases w with
  | registerAttempt row =>
      simp only [Database.apply]
      split
      · exact .refl db
      · exact { refl db with }
  | insertEvent row => exact { refl db with events := List.subset_append_left _ _ }
  | setAnalytics tables => exact { refl db with }
  | appendPrediction row => exact { refl db with predictions := List.subset_append_left _ _ }
  | appendDecision row => exact { refl db with decisions := List.subset_append_left _ _ }
  | insertCommand row =>
      exact { refl db with commands := fun c hc => ⟨c, List.mem_append_left _ hc, .refl c⟩ }
  | updateCommandStatus id expected target reason at' =>
      refine { refl db with commands := fun c hc => ⟨_, List.mem_map_of_mem hc, ?_⟩ }
      split
      · exact .setStatus ..
      · exact .refl c
  | insertExecutionAttempt row =>
      exact { refl db with executionAttempts := List.subset_append_left _ _ }
  | insertObservation row => exact { refl db with observations := List.subset_append_left _ _ }
  | appendAttribution row => exact { refl db with attributions := List.subset_append_left _ _ }

theorem foldl (db : Database) (ws : List Write) : Keeps db (ws.foldl Database.apply db) := by
  induction ws generalizing db with
  | nil => exact .refl db
  | cons w ws ih => exact (Keeps.apply db w).trans (ih _)

/-- The same write keeps a later store later. -/
theorem apply_mono {db db' : Database} (h : Keeps db db') (w : Write) :
    Keeps (db.apply w) (db'.apply w) := by
  have happend : ∀ {α : Type} {xs ys : List α} (a : α), xs ⊆ ys → xs ++ [a] ⊆ ys ++ [a] :=
    fun a hxy => List.append_subset.mpr ⟨List.subset_append_of_subset_left _ hxy,
      List.subset_append_right _ _⟩
  cases w with
  | registerAttempt row =>
      simp only [Database.apply]
      split <;> split <;> exact { h with }
  | insertEvent row => exact { h with events := happend row h.events }
  | setAnalytics tables => exact { h with }
  | appendPrediction row => exact { h with predictions := happend row h.predictions }
  | appendDecision row => exact { h with decisions := happend row h.decisions }
  | insertCommand row =>
      refine { h with commands := fun c hc => ?_ }
      rcases List.mem_append.mp hc with hc | hc
      · obtain ⟨c', hc', hsame⟩ := h.commands c hc
        exact ⟨c', List.mem_append_left _ hc', hsame⟩
      · exact ⟨c, List.mem_append_right _ hc, .refl c⟩
  | updateCommandStatus id expected target reason at' =>
      refine { h with commands := fun c hc => ?_ }
      obtain ⟨x, hx, rfl⟩ := List.mem_map.mp hc
      obtain ⟨y, hy, hsame⟩ := h.commands x hx
      refine ⟨_, List.mem_map_of_mem hy, ?_⟩
      rw [hsame]
      split_ifs <;> rfl
  | insertExecutionAttempt row =>
      exact { h with executionAttempts := happend row h.executionAttempts }
  | insertObservation row => exact { h with observations := happend row h.observations }
  | appendAttribution row => exact { h with attributions := happend row h.attributions }

theorem foldl_mono {db db' : Database} (h : Keeps db db') (ws : List Write) :
    Keeps (ws.foldl Database.apply db) (ws.foldl Database.apply db') := by
  induction ws generalizing db db' with
  | nil => exact h
  | cons w ws ih => exact ih (h.apply_mono w)

end Keeps

/-! ## Added rows -/

/-- Every row of the later store is one of the earlier or one the writes insert, commands
up to their lifecycle fields. -/
structure Adds (db : Database) (ws : List Write) (db' : Database) : Prop where
  events : ∀ e ∈ db'.events, e ∈ db.events ∨ .insertEvent e ∈ ws
  predictions : ∀ p ∈ db'.predictions, p ∈ db.predictions ∨ .appendPrediction p ∈ ws
  decisions : ∀ d ∈ db'.decisions, d ∈ db.decisions ∨ .appendDecision d ∈ ws
  commands : ∀ c ∈ db'.commands, (∃ c₀ ∈ db.commands, c₀.SamePayload c) ∨
    ∃ c₀, .insertCommand c₀ ∈ ws ∧ c₀.SamePayload c
  observations : ∀ o ∈ db'.observations, o ∈ db.observations ∨ .insertObservation o ∈ ws
  attributions : ∀ a ∈ db'.attributions, a ∈ db.attributions ∨ .appendAttribution a ∈ ws

namespace Adds

theorem nil (db : Database) : Adds db [] db :=
  ⟨fun _ h => .inl h, fun _ h => .inl h, fun _ h => .inl h, fun c h => .inl ⟨c, h, .refl c⟩,
    fun _ h => .inl h, fun _ h => .inl h⟩

/-- A write inserts its own row and no other. -/
theorem cons {db db' : Database} {w : Write} {ws : List Write} (h : Adds (db.apply w) ws db') :
    Adds db (w :: ws) db' := by
  have hrow : ∀ {α : Type} {xs : List α} {a x : α} {ins : α → Write},
      x ∈ xs ++ [a] ∨ ins x ∈ ws → x ∈ xs ∨ ins x ∈ ins a :: ws := by
    rintro α xs a x ins (hx | hx)
    · rcases List.mem_append.mp hx with hx | hx
      · exact .inl hx
      · obtain rfl := List.mem_singleton.mp hx
        exact .inr List.mem_cons_self
    · exact .inr (List.mem_cons_of_mem _ hx)
  have hrest : ∀ {P : Prop} {v : Write}, P ∨ v ∈ ws → P ∨ v ∈ w :: ws :=
    fun hx => hx.imp_right (List.mem_cons_of_mem _)
  have hcommand : ∀ {P : Prop} {c : InterventionCommand},
      (P ∨ ∃ c₀, .insertCommand c₀ ∈ ws ∧ c₀.SamePayload c) →
      P ∨ ∃ c₀, .insertCommand c₀ ∈ w :: ws ∧ c₀.SamePayload c :=
    fun hx => hx.imp_right fun ⟨c₀, hc₀, hsame⟩ => ⟨c₀, List.mem_cons_of_mem _ hc₀, hsame⟩
  have hsame : ∀ {db₁ : Database}, Adds db₁ ws db' → db₁.events = db.events →
      db₁.predictions = db.predictions → db₁.decisions = db.decisions →
      db₁.commands = db.commands → db₁.observations = db.observations →
      db₁.attributions = db.attributions → Adds db (w :: ws) db' := by
    intro db₁ h₁ he hp hd hc ho ha
    exact ⟨fun e hx => hrest (he ▸ h₁.events e hx), fun p hx => hrest (hp ▸ h₁.predictions p hx),
      fun d hx => hrest (hd ▸ h₁.decisions d hx), fun c hx => hcommand (hc ▸ h₁.commands c hx),
      fun o hx => hrest (ho ▸ h₁.observations o hx), fun a hx => hrest (ha ▸ h₁.attributions a hx)⟩
  have hkept := fun c hx => hcommand (h.commands c hx)
  cases w with
  | registerAttempt row =>
      simp only [Database.apply] at h
      split at h <;> exact hsame h rfl rfl rfl rfl rfl rfl
  | setAnalytics tables => exact hsame h rfl rfl rfl rfl rfl rfl
  | insertExecutionAttempt row => exact hsame h rfl rfl rfl rfl rfl rfl
  | insertEvent row =>
      exact ⟨fun e hx => hrow (h.events e hx), fun p hx => hrest (h.predictions p hx),
        fun d hx => hrest (h.decisions d hx), hkept, fun o hx => hrest (h.observations o hx),
        fun a hx => hrest (h.attributions a hx)⟩
  | appendPrediction row =>
      exact ⟨fun e hx => hrest (h.events e hx), fun p hx => hrow (h.predictions p hx),
        fun d hx => hrest (h.decisions d hx), hkept, fun o hx => hrest (h.observations o hx),
        fun a hx => hrest (h.attributions a hx)⟩
  | appendDecision row =>
      exact ⟨fun e hx => hrest (h.events e hx), fun p hx => hrest (h.predictions p hx),
        fun d hx => hrow (h.decisions d hx), hkept, fun o hx => hrest (h.observations o hx),
        fun a hx => hrest (h.attributions a hx)⟩
  | insertObservation row =>
      exact ⟨fun e hx => hrest (h.events e hx), fun p hx => hrest (h.predictions p hx),
        fun d hx => hrest (h.decisions d hx), hkept, fun o hx => hrow (h.observations o hx),
        fun a hx => hrest (h.attributions a hx)⟩
  | appendAttribution row =>
      exact ⟨fun e hx => hrest (h.events e hx), fun p hx => hrest (h.predictions p hx),
        fun d hx => hrest (h.decisions d hx), hkept, fun o hx => hrest (h.observations o hx),
        fun a hx => hrow (h.attributions a hx)⟩
  | insertCommand row =>
      refine ⟨fun e hx => hrest (h.events e hx), fun p hx => hrest (h.predictions p hx),
        fun d hx => hrest (h.decisions d hx), fun c hx => ?_,
        fun o hx => hrest (h.observations o hx), fun a hx => hrest (h.attributions a hx)⟩
      rcases hkept c hx with ⟨c₀, hc₀, hpay⟩ | hnew
      · rcases List.mem_append.mp hc₀ with hc₀ | hc₀
        · exact .inl ⟨c₀, hc₀, hpay⟩
        · obtain rfl := List.mem_singleton.mp hc₀
          exact .inr ⟨_, List.mem_cons_self, hpay⟩
      · exact .inr hnew
  | updateCommandStatus id expected target reason at' =>
      refine ⟨fun e hx => hrest (h.events e hx), fun p hx => hrest (h.predictions p hx),
        fun d hx => hrest (h.decisions d hx), fun c hx => ?_,
        fun o hx => hrest (h.observations o hx), fun a hx => hrest (h.attributions a hx)⟩
      rcases hkept c hx with ⟨c₀, hc₀, hpay⟩ | hnew
      · obtain ⟨c₁, hc₁, rfl⟩ := List.mem_map.mp hc₀
        refine .inl ⟨c₁, hc₁, .trans ?_ hpay⟩
        split_ifs
        · exact .setStatus ..
        · exact .refl _
      · exact .inr hnew

theorem foldl (db : Database) (ws : List Write) : Adds db ws (ws.foldl Database.apply db) := by
  induction ws generalizing db with
  | nil => exact .nil db
  | cons w ws ih => exact .cons (ih _)

end Adds

/-! ## Rows in insertion order -/

/-- A table that every write leaves as it is or appends a row to has the rows of the writes
at its end. -/
private theorem Database.table_foldl {α : Type} {table : Database → List α}
    {row? : Write → Option α} (h : ∀ db w, table (db.apply w) = table db ++ (row? w).toList)
    (db : Database) (ws : List Write) :
    table (ws.foldl Database.apply db) = table db ++ ws.filterMap row? := by
  induction ws generalizing db with
  | nil => simp
  | cons w ws ih =>
      rw [List.foldl_cons, ih, h]
      cases hw : row? w <;> simp [hw]

/-- The event a write inserts. -/
def Write.event? : Write → Option PaymentEvent
  | .insertEvent e => some e
  | _ => none

/-- The decision a write appends. -/
def Write.decision? : Write → Option InterventionDecision
  | .appendDecision d => some d
  | _ => none

/-- The execution attempt a write inserts. -/
def Write.executionAttempt? : Write → Option ExecutionAttempt
  | .insertExecutionAttempt a => some a
  | _ => none

/-- The observation a write inserts. -/
def Write.observation? : Write → Option PaymentOutcomeObservation
  | .insertObservation o => some o
  | _ => none

theorem mem_filterMap_decision? {ws : List Write} {d : InterventionDecision} :
    d ∈ ws.filterMap Write.decision? ↔ .appendDecision d ∈ ws := by
  rw [List.mem_filterMap]
  constructor
  · rintro ⟨w, hw, hwd⟩
    cases w <;> simp only [Write.decision?, Option.some.injEq, reduceCtorEq] at hwd
    exact hwd ▸ hw
  · exact fun h => ⟨_, h, rfl⟩

theorem mem_filterMap_executionAttempt? {ws : List Write} {a : ExecutionAttempt} :
    a ∈ ws.filterMap Write.executionAttempt? ↔ .insertExecutionAttempt a ∈ ws := by
  rw [List.mem_filterMap]
  constructor
  · rintro ⟨w, hw, hwa⟩
    cases w <;> simp only [Write.executionAttempt?, Option.some.injEq, reduceCtorEq] at hwa
    exact hwa ▸ hw
  · exact fun h => ⟨_, h, rfl⟩

theorem mem_filterMap_observation? {ws : List Write} {o : PaymentOutcomeObservation} :
    o ∈ ws.filterMap Write.observation? ↔ .insertObservation o ∈ ws := by
  rw [List.mem_filterMap]
  constructor
  · rintro ⟨w, hw, hwo⟩
    cases w <;> simp only [Write.observation?, Option.some.injEq, reduceCtorEq] at hwo
    exact hwo ▸ hw
  · exact fun h => ⟨_, h, rfl⟩

theorem Database.events_foldl (db : Database) (ws : List Write) :
    (ws.foldl Database.apply db).events = db.events ++ ws.filterMap Write.event? := by
  refine table_foldl (fun db w => ?_) db ws
  cases w with
  | registerAttempt row =>
      simp only [Database.apply]
      split <;> simp [Write.event?]
  | _ => simp [Database.apply, Write.event?]

theorem Database.decisions_foldl (db : Database) (ws : List Write) :
    (ws.foldl Database.apply db).decisions = db.decisions ++ ws.filterMap Write.decision? := by
  refine table_foldl (fun db w => ?_) db ws
  cases w with
  | registerAttempt row =>
      simp only [Database.apply]
      split <;> simp [Write.decision?]
  | _ => simp [Database.apply, Write.decision?]

theorem Database.executionAttempts_foldl (db : Database) (ws : List Write) :
    (ws.foldl Database.apply db).executionAttempts =
      db.executionAttempts ++ ws.filterMap Write.executionAttempt? := by
  refine table_foldl (fun db w => ?_) db ws
  cases w with
  | registerAttempt row =>
      simp only [Database.apply]
      split <;> simp [Write.executionAttempt?]
  | _ => simp [Database.apply, Write.executionAttempt?]

theorem Database.observations_foldl (db : Database) (ws : List Write) :
    (ws.foldl Database.apply db).observations =
      db.observations ++ ws.filterMap Write.observation? := by
  refine table_foldl (fun db w => ?_) db ws
  cases w with
  | registerAttempt row =>
      simp only [Database.apply]
      split <;> simp [Write.observation?]
  | _ => simp [Database.apply, Write.observation?]

/-! ## Unique constraints -/

/-- Two rows of one table that a unique constraint does not allow together. -/
def Write.conflicts : Write → Write → Bool
  | .insertEvent a, .insertEvent b => b.sameIdentity a
  | .appendPrediction a, .appendPrediction b => b.sameVersion a
  | .appendDecision a, .appendDecision b => b.sameVersion a
  | .insertCommand a, .insertCommand b => b.sameIdentity a
  | .insertExecutionAttempt a, .insertExecutionAttempt b => b.sameNumber a
  | .insertObservation a, .insertObservation b => b.sameVersion a
  | .appendAttribution a, .appendAttribution b => b.sameVersion a
  | _, _ => false

/-- Conflicting writes of two sessions compete. -/
theorem Write.conflicts_of_clashes {a b : Write} (h : a.clashes b = false) :
    a.conflicts b = false := by
  rw [Write.clashes_symm] at h
  cases a <;> cases b <;> first | rfl | exact h

/-- The unique constraints of the tables. -/
structure Unique (db : Database) : Prop where
  events : db.events.Pairwise fun a b => b.sameIdentity a = false
  predictions : db.predictions.Pairwise fun a b => b.sameVersion a = false
  decisions : db.decisions.Pairwise fun a b => b.sameVersion a = false
  commands : db.commands.Pairwise fun a b => b.sameIdentity a = false
  executionAttempts : db.executionAttempts.Pairwise fun a b => b.sameNumber a = false
  observations : db.observations.Pairwise fun a b => b.sameVersion a = false
  attributions : db.attributions.Pairwise fun a b => b.sameVersion a = false

theorem Unique.empty : Unique {} := by constructor <;> exact .nil

private theorem pairwise_snoc {α : Type} {R : α → α → Bool} {rows : List α} {a : α}
    (h : rows.Pairwise fun x y => R y x = false) (ha : rows.any (R a) = false) :
    (rows ++ [a]).Pairwise fun x y => R y x = false := by
  rw [List.pairwise_append]
  refine ⟨h, List.pairwise_singleton _ _, fun x hx y hy => ?_⟩
  obtain rfl := List.mem_singleton.mp hy
  simpa using List.any_eq_false.mp ha x hx

theorem Unique.apply {db : Database} {w : Write} (h : Unique db)
    (hw : db.violates w = false) : Unique (db.apply w) := by
  cases w with
  | registerAttempt row =>
      simp only [Database.apply]
      split <;> exact { h with }
  | insertEvent row => exact { h with events := pairwise_snoc h.events hw }
  | setAnalytics tables => exact { h with }
  | appendPrediction row => exact { h with predictions := pairwise_snoc h.predictions hw }
  | appendDecision row => exact { h with decisions := pairwise_snoc h.decisions hw }
  | insertCommand row => exact { h with commands := pairwise_snoc h.commands hw }
  | updateCommandStatus id expected target reason at' =>
      refine { h with commands := h.commands.map _ fun a b hab => ?_ }
      split_ifs <;> simpa using hab
  | insertExecutionAttempt row =>
      exact { h with executionAttempts := pairwise_snoc h.executionAttempts hw }
  | insertObservation row => exact { h with observations := pairwise_snoc h.observations hw }
  | appendAttribution row => exact { h with attributions := pairwise_snoc h.attributions hw }

/-- A write violates a constraint after another one when it did before or they conflict. -/
theorem Database.violates_apply (db : Database) (a b : Write) :
    (db.apply a).violates b = (db.violates b || a.conflicts b) := by
  have hcommands : ∀ (c : InterventionCommand) (id : CommandId) (e s : CommandStatus)
      (r : Option String) (t : Time),
      (c.sameIdentity ∘ fun x : InterventionCommand =>
        if x.commandId = id ∧ x.commandStatus = e then x.setStatus s r t else x) =
      c.sameIdentity := by
    intro c id e s r t
    funext x
    simp only [Function.comp_apply]
    split <;> simp
  cases a with
  | registerAttempt row =>
      simp only [Database.apply]
      split <;> cases b <;> simp [Database.violates, Write.conflicts]
  | updateCommandStatus id e s r t =>
      cases b <;>
        simp [Database.violates, Write.conflicts, Database.apply, List.any_map, hcommands]
  | _ =>
      cases b <;> simp [Database.violates, Write.conflicts, Database.apply]

/-- Every program over the tables keeps the unique constraints. -/
theorem Database.constraints {Lock Effect Proc Input Arrival : Type}
    {P : Program Database Write Lock Effect Proc Input Arrival} (ha : P.apply = Database.apply)
    (hv : P.violates = Database.violates) (hc : P.clashes = Write.clashes) :
    P.Constraints Write.conflicts Unique where
  violates_apply db a b := by rw [ha, hv, Database.violates_apply]
  clashes h := Write.conflicts_of_clashes (by rwa [hc] at h)
  keep h hw := by
    rw [hv] at hw
    rw [ha]
    exact h.apply hw

/-- In a table without two related rows, related rows are equal. -/
private theorem eq_of_pairwise {α : Type} {R : α → α → Bool} {rows : List α}
    (h : rows.Pairwise fun x y => R y x = false) (hsymm : ∀ x y, R x y = R y x) {a b : α}
    (ha : a ∈ rows) (hb : b ∈ rows) (hab : R a b = true) : a = b := by
  by_contra hne
  have : Std.Symm fun x y => R y x = false := ⟨fun x y hxy => by rw [hsymm]; exact hxy⟩
  have hfalse := h.forall hb ha (Ne.symm hne)
  simp [hab] at hfalse

namespace Unique
variable {db : Database}

theorem decision_eq (h : Unique db) {a b : InterventionDecision} (ha : a ∈ db.decisions)
    (hb : b ∈ db.decisions) (hid : a.decisionId = b.decisionId) : a = b := by
  refine eq_of_pairwise h.decisions (fun x y => ?_) ha hb (by
    simp [InterventionDecision.sameVersion, hid])
  simp only [InterventionDecision.sameVersion, Bool.beq_eq_decide_eq, eq_comm]

theorem prediction_eq (h : Unique db) {a b : FailurePrediction} (ha : a ∈ db.predictions)
    (hb : b ∈ db.predictions) (hid : a.predictionId = b.predictionId) : a = b := by
  refine eq_of_pairwise h.predictions (fun x y => ?_) ha hb (by
    simp [FailurePrediction.sameVersion, hid])
  simp only [FailurePrediction.sameVersion, Bool.beq_eq_decide_eq, eq_comm]

theorem command_eq (h : Unique db) {a b : InterventionCommand} (ha : a ∈ db.commands)
    (hb : b ∈ db.commands) (hid : a.commandId = b.commandId ∨ a.decisionId = b.decisionId) :
    a = b := by
  refine eq_of_pairwise h.commands (fun x y => ?_) ha hb ?_
  · simp only [InterventionCommand.sameIdentity, Bool.beq_eq_decide_eq, eq_comm]
  · rcases hid with hid | hid <;> simp [InterventionCommand.sameIdentity, hid]

theorem executionAttempt_eq (h : Unique db) {a b : ExecutionAttempt}
    (ha : a ∈ db.executionAttempts) (hb : b ∈ db.executionAttempts)
    (hid : a.commandId = b.commandId) (hn : a.attemptNumber = b.attemptNumber) : a = b := by
  refine eq_of_pairwise h.executionAttempts (fun x y => ?_) ha hb (by
    simp [ExecutionAttempt.sameNumber, hid, hn])
  simp only [ExecutionAttempt.sameNumber, Bool.beq_eq_decide_eq, eq_comm]

theorem observation_eq (h : Unique db) {a b : PaymentOutcomeObservation}
    (ha : a ∈ db.observations) (hb : b ∈ db.observations) (hid : a.commandId = b.commandId)
    (hv : a.observationVersion = b.observationVersion ∨ a.asOfTimestamp = b.asOfTimestamp) :
    a = b := by
  refine eq_of_pairwise h.observations (fun x y => ?_) ha hb ?_
  · simp only [PaymentOutcomeObservation.sameVersion, Bool.beq_eq_decide_eq, eq_comm]
  · rcases hv with hv | hv <;> simp [PaymentOutcomeObservation.sameVersion, hid, hv]

/-- An id finds the row that has it. -/
theorem getCommandById (h : Unique db) {c : InterventionCommand} (hc : c ∈ db.commands) :
    db.getCommandById c.commandId = some c := by
  have hfind : (db.getCommandById c.commandId).isSome := by
    simpa [Database.getCommandById, List.find?_isSome] using ⟨c, hc, rfl⟩
  obtain ⟨x, hx⟩ := Option.isSome_iff_exists.mp hfind
  have hxc : x.commandId = c.commandId := by simpa using List.find?_some hx
  rw [hx, h.command_eq (List.mem_of_find?_eq_some hx) hc (.inl hxc)]

end Unique

end RevenueRecovery
