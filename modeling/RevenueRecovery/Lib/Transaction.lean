import Mathlib.Data.List.Basic
import Mathlib.Data.List.GetD
import RevenueRecovery.Lib.Run

/-!
# Read-committed transactions with advisory locks

Several sessions run programs against one committed store. Every statement reads
the committed store extended by the session's own pending writes. Writes stay
pending until the session commits; a statement that competes with another
session's pending write for a key waits, and one that violates a constraint
raises and rolls the session back. Advisory locks are held to the end of the
transaction. Calls to the outside world are logged when they are made and are
never undone by a rollback.

A group of consecutive reads is one step of the program. `look` records what one
statement of the group sees, so that the statements of a group may read the store
at different moments.

## Main definitions
* `Outcome` : what one step of a program does.
* `Program` : the store, its constraints and the sessions' step function.
* `World`, `Program.worldStep` : the sessions, the committed store and its steps.
* `Separated` : distinct sessions hold distinct locks and do not compete for keys.
* `Program.Invariant` : rely-guarantee obligations for an invariant of all sessions.
* `Program.ExclusiveInvariant` : the same for runs in which sessions exclude each other.
* `Program.Guarantee` : obligations for a relation between earlier and later stores.
* `Program.Constraints` : unique constraints, which every committed store meets.
-/
namespace Transaction

variable {Db Write Lock Effect Proc Input Arrival : Type*}

/-- What one step of a session does: wait for a lock, read and write, call the
outside world, or end the transaction. -/
inductive Outcome (Write Lock Effect Proc : Type*)
  | lock (key : Lock) (next : Proc)
  | write (ws : List Write) (next : Proc)
  | call (effect : Effect) (next : Proc)
  | commit (next : Proc)
  | rollback (next : Proc)

namespace Outcome

/-- Run the same outcome inside a larger program state. -/
def map {Proc' : Type*} (f : Proc → Proc') :
    Outcome Write Lock Effect Proc → Outcome Write Lock Effect Proc'
  | lock key next => lock key (f next)
  | write ws next => write ws (f next)
  | call effect next => call effect (f next)
  | commit next => commit (f next)
  | rollback next => rollback (f next)

/-- The program state after the outcome, unless it raises. -/
def next : Outcome Write Lock Effect Proc → Proc
  | lock _ next | write _ next | call _ next | commit next | rollback next => next

end Outcome

/-- A session: its program state, its uncommitted writes in order, the advisory
locks it holds, and the store as seen by the statements of the current step so far. -/
structure Session (Db Write Lock Proc : Type*) where
  proc : Proc
  pending : List Write
  locks : List Lock
  views : List Db

namespace Session

/-- A session at the start of a transaction. -/
def fresh (p : Proc) : Session Db Write Lock Proc := ⟨p, [], [], []⟩

@[simp] theorem proc_fresh (p : Proc) : (fresh p : Session Db Write Lock Proc).proc = p := rfl
@[simp] theorem pending_fresh (p : Proc) :
    (fresh p : Session Db Write Lock Proc).pending = [] := rfl
@[simp] theorem locks_fresh (p : Proc) :
    (fresh p : Session Db Write Lock Proc).locks = [] := rfl
@[simp] theorem views_fresh (p : Proc) :
    (fresh p : Session Db Write Lock Proc).views = [] := rfl

/-- The session after it has acquired a lock. -/
def locked (s : Session Db Write Lock Proc) (key : Lock) (next : Proc) :
    Session Db Write Lock Proc :=
  { s with proc := next, locks := key :: s.locks, views := [] }

/-- The session after it has written. -/
def wrote (s : Session Db Write Lock Proc) (ws : List Write) (next : Proc) :
    Session Db Write Lock Proc :=
  { s with proc := next, pending := s.pending ++ ws, views := [] }

/-- The session after a step that neither locks nor writes. -/
def moved (s : Session Db Write Lock Proc) (next : Proc) : Session Db Write Lock Proc :=
  { s with proc := next, views := [] }

@[simp] theorem proc_locked (s : Session Db Write Lock Proc) (key : Lock) (next : Proc) :
    (s.locked key next).proc = next := rfl
@[simp] theorem proc_wrote (s : Session Db Write Lock Proc) (ws : List Write) (next : Proc) :
    (s.wrote ws next).proc = next := rfl
@[simp] theorem proc_moved (s : Session Db Write Lock Proc) (next : Proc) :
    (s.moved next).proc = next := rfl

end Session

/-- A transactional program: how writes change a store, which writes violate its
constraints, which writes of two sessions compete for the same key, and what the
sessions do. `step p input reads now` is what a session at `p` does next when the
`k`-th statement of the group reads `reads k` and the store is `now` at that moment.
`arrive` is an external transaction that commits at once and may start sessions. -/
structure Program (Db Write Lock Effect Proc Input Arrival : Type*) where
  apply : Db → Write → Db
  violates : Db → Write → Bool
  clashes : Write → Write → Bool
  clashes_symm : ∀ a b, clashes a b = clashes b a
  step : Proc → Input → (ℕ → Db) → Db → Option (Outcome Write Lock Effect Proc)
  onError : Proc → Proc
  arrive : Arrival → Db → Option (List Write × List Proc)

/-- The committed store, the sessions, and the calls made so far, oldest first. -/
structure World (Db Write Lock Effect Proc : Type*) where
  db : Db
  sessions : List (Session Db Write Lock Proc)
  calls : List (ℕ × Effect)

/-- The scheduler's choices: an external transaction arrives, session `i` records
what its next statement reads, takes a step, or fails. -/
inductive Action (Input Arrival : Type*)
  | arrive (x : Arrival)
  | look (i : ℕ)
  | advance (i : ℕ) (input : Input)
  | abort (i : ℕ)

namespace World

/-- Replace session `i`. -/
def setSession (w : World Db Write Lock Effect Proc) (i : ℕ)
    (s : Session Db Write Lock Proc) : World Db Write Lock Effect Proc :=
  { w with sessions := w.sessions.set i s }

@[simp] theorem db_setSession (w : World Db Write Lock Effect Proc) (i : ℕ)
    (s : Session Db Write Lock Proc) : (w.setSession i s).db = w.db := rfl
@[simp] theorem calls_setSession (w : World Db Write Lock Effect Proc) (i : ℕ)
    (s : Session Db Write Lock Proc) : (w.setSession i s).calls = w.calls := rfl
@[simp] theorem sessions_setSession (w : World Db Write Lock Effect Proc) (i : ℕ)
    (s : Session Db Write Lock Proc) :
    (w.setSession i s).sessions = w.sessions.set i s := rfl

/-- A session other than `i` holds the lock. -/
def heldByOther [DecidableEq Lock] (w : World Db Write Lock Effect Proc) (i : ℕ)
    (key : Lock) : Bool :=
  w.sessions.zipIdx.any fun t => t.2 ≠ i && t.1.locks.contains key

theorem not_heldByOther [DecidableEq Lock] {w : World Db Write Lock Effect Proc} {i : ℕ}
    {key : Lock} (h : w.heldByOther i key = false) {j : ℕ} {t : Session Db Write Lock Proc}
    (hj : w.sessions[j]? = some t) (hne : j ≠ i) : key ∉ t.locks := by
  intro hmem
  have hany : w.heldByOther i key = true := by
    rw [heldByOther, List.any_eq_true]
    exact ⟨(t, j), List.mem_zipIdx_iff_getElem?.mpr hj, by simp [hne, hmem]⟩
  simp [h] at hany

end World

namespace Program

variable (P : Program Db Write Lock Effect Proc Input Arrival)

/-- The store after several writes. -/
def applyAll (db : Db) (ws : List Write) : Db := ws.foldl P.apply db

@[simp] theorem applyAll_nil (db : Db) : P.applyAll db [] = db := rfl

@[simp] theorem applyAll_cons (db : Db) (w : Write) (ws : List Write) :
    P.applyAll db (w :: ws) = P.applyAll (P.apply db w) ws := rfl

theorem applyAll_append (db : Db) (ws vs : List Write) :
    P.applyAll db (ws ++ vs) = P.applyAll (P.applyAll db ws) vs :=
  List.foldl_append ..

/-- Some write of the list violates a constraint when its turn comes. -/
def violatesAny : Db → List Write → Bool
  | _, [] => false
  | db, w :: ws => P.violates db w || violatesAny (P.apply db w) ws

/-- The store as the session's next statement sees it. -/
def view (db : Db) (s : Session Db Write Lock Proc) : Db := P.applyAll db s.pending

@[simp] theorem view_fresh (db : Db) (p : Proc) :
    P.view db (Session.fresh p : Session Db Write Lock Proc) = db := rfl

/-- What a session writes, it sees. -/
theorem view_wrote (db : Db) (s : Session Db Write Lock Proc) (ws : List Write) (next : Proc) :
    P.view db (s.wrote ws next) = P.applyAll (P.view db s) ws := by
  rw [view, Session.wrote, P.applyAll_append]
  rfl

/-- What the statements of the session's step read: the recorded views in order,
then the present view. -/
def reads (db : Db) (s : Session Db Write Lock Proc) (k : ℕ) : Db :=
  s.views.getD k (P.view db s)

/-- Every statement reads a recorded view or the present one. -/
theorem reads_cases (db : Db) (s : Session Db Write Lock Proc) (k : ℕ) :
    P.reads db s k ∈ s.views ∨ P.reads db s k = P.view db s := by
  unfold reads
  rcases Nat.lt_or_ge k s.views.length with hk | hk
  · left; rw [List.getD_eq_getElem _ _ hk]; exact List.getElem_mem hk
  · right; exact List.getD_eq_default _ _ hk

/-- What the session does next on the committed store. -/
def outcome (db : Db) (s : Session Db Write Lock Proc) (input : Input) :
    Option (Outcome Write Lock Effect Proc) :=
  P.step s.proc input (P.reads db s) (P.view db s)

/-- The session after one of its statements has read. -/
def looked (db : Db) (s : Session Db Write Lock Proc) : Session Db Write Lock Proc :=
  { s with views := s.views ++ [P.view db s] }

/-- A write of the list competes with a pending write of another session. -/
def blocked (w : World Db Write Lock Effect Proc) (i : ℕ) (ws : List Write) : Bool :=
  w.sessions.zipIdx.any fun t => t.2 ≠ i && t.1.pending.any fun a => ws.any (P.clashes a)

theorem not_blocked {w : World Db Write Lock Effect Proc} {i : ℕ} {ws : List Write}
    (h : P.blocked w i ws = false) {j : ℕ} {t : Session Db Write Lock Proc}
    (hj : w.sessions[j]? = some t) (hne : j ≠ i) {a b : Write} (ha : a ∈ t.pending)
    (hb : b ∈ ws) : P.clashes a b = false := by
  by_contra hclash
  have hany : P.blocked w i ws = true := by
    rw [blocked, List.any_eq_true]
    refine ⟨(t, j), List.mem_zipIdx_iff_getElem?.mpr hj, ?_⟩
    simp only [ne_eq, hne, not_false_eq_true, decide_true, Bool.true_and, List.any_eq_true]
    exact ⟨a, ha, b, hb, by simpa using hclash⟩
  simp [h] at hany

variable [DecidableEq Lock]

/-- Carry out one outcome of session `i`; `none` when the session has to wait. -/
def perform (w : World Db Write Lock Effect Proc) (i : ℕ) (s : Session Db Write Lock Proc) :
    Outcome Write Lock Effect Proc → Option (World Db Write Lock Effect Proc)
  | .lock key next =>
      if w.heldByOther i key then none else some (w.setSession i (s.locked key next))
  | .write ws next =>
      if P.blocked w i ws then none
      else if P.violatesAny (P.view w.db s) ws then
        some (w.setSession i (.fresh (P.onError s.proc)))
      else some (w.setSession i (s.wrote ws next))
  | .call effect next =>
      some { w.setSession i (s.moved next) with calls := w.calls ++ [(i, effect)] }
  | .commit next => some { w.setSession i (.fresh next) with db := P.view w.db s }
  | .rollback next => some (w.setSession i (.fresh next))

/-- One scheduled action. -/
def worldStep (w : World Db Write Lock Effect Proc) :
    Action Input Arrival → Option (World Db Write Lock Effect Proc)
  | .arrive x =>
      match P.arrive x w.db with
      | none => none
      | some (ws, ps) =>
          if P.violatesAny w.db ws || P.blocked w w.sessions.length ws then none
          else some { w with db := P.applyAll w.db ws,
                             sessions := w.sessions ++ ps.map Session.fresh }
  | .look i => (w.sessions[i]?).map fun s => w.setSession i (P.looked w.db s)
  | .abort i => (w.sessions[i]?).map fun s => w.setSession i (.fresh (P.onError s.proc))
  | .advance i input =>
      match w.sessions[i]? with
      | none => none
      | some s =>
          match P.outcome w.db s input with
          | none => none
          | some o => P.perform w i s o

/-- What a step of the world can be, with everything its enabledness checked. -/
inductive Stepped (w : World Db Write Lock Effect Proc) :
    Action Input Arrival → World Db Write Lock Effect Proc → Prop
  | arrived {x ws ps} (harr : P.arrive x w.db = some (ws, ps))
      (hok : P.violatesAny w.db ws = false)
      (hfree : ∀ s ∈ w.sessions, ∀ a ∈ s.pending, ∀ b ∈ ws, P.clashes a b = false) :
      Stepped w (.arrive x) { w with db := P.applyAll w.db ws,
                                     sessions := w.sessions ++ ps.map Session.fresh }
  | looked {i s} (hs : w.sessions[i]? = some s) :
      Stepped w (.look i) (w.setSession i (P.looked w.db s))
  | aborted {i s} (hs : w.sessions[i]? = some s) :
      Stepped w (.abort i) (w.setSession i (.fresh (P.onError s.proc)))
  | locked {i input s key next} (hs : w.sessions[i]? = some s)
      (hp : P.outcome w.db s input = some (.lock key next))
      (hfree : ∀ j t, w.sessions[j]? = some t → j ≠ i → key ∉ t.locks) :
      Stepped w (.advance i input) (w.setSession i (s.locked key next))
  | wrote {i input s ws next} (hs : w.sessions[i]? = some s)
      (hp : P.outcome w.db s input = some (.write ws next))
      (hfree : ∀ j t, w.sessions[j]? = some t → j ≠ i → ∀ a ∈ t.pending, ∀ b ∈ ws,
        P.clashes a b = false)
      (hok : P.violatesAny (P.view w.db s) ws = false) :
      Stepped w (.advance i input) (w.setSession i (s.wrote ws next))
  | raised {i input s ws next} (hs : w.sessions[i]? = some s)
      (hp : P.outcome w.db s input = some (.write ws next))
      (hbad : P.violatesAny (P.view w.db s) ws = true) :
      Stepped w (.advance i input) (w.setSession i (.fresh (P.onError s.proc)))
  | called {i input s effect next} (hs : w.sessions[i]? = some s)
      (hp : P.outcome w.db s input = some (.call effect next)) :
      Stepped w (.advance i input)
        { w.setSession i (s.moved next) with calls := w.calls ++ [(i, effect)] }
  | committed {i input s next} (hs : w.sessions[i]? = some s)
      (hp : P.outcome w.db s input = some (.commit next)) :
      Stepped w (.advance i input) { w.setSession i (.fresh next) with db := P.view w.db s }
  | rolledBack {i input s next} (hs : w.sessions[i]? = some s)
      (hp : P.outcome w.db s input = some (.rollback next)) :
      Stepped w (.advance i input) (w.setSession i (.fresh next))

variable {P}

/-- Every step of the world is one of the listed ones. -/
theorem stepped {w w' : World Db Write Lock Effect Proc} {a : Action Input Arrival}
    (h : P.worldStep w a = some w') : P.Stepped w a w' := by
  cases a with
  | arrive x =>
      simp only [worldStep] at h
      split at h
      · cases h
      · rename_i ws ps harr
        split at h
        · cases h
        · rename_i hok
          cases h
          obtain ⟨hviolates, hblocked⟩ : P.violatesAny w.db ws = false ∧
              P.blocked w w.sessions.length ws = false := by simpa using hok
          refine .arrived harr hviolates fun s hs a ha b hb => ?_
          obtain ⟨j, hj⟩ := List.mem_iff_getElem?.mp hs
          have hlt : j < w.sessions.length := (List.getElem?_eq_some_iff.mp hj).1
          exact P.not_blocked hblocked hj (Nat.ne_of_lt hlt) ha hb
  | look i =>
      simp only [worldStep, Option.map_eq_some_iff] at h
      obtain ⟨s, hs, rfl⟩ := h
      exact .looked hs
  | abort i =>
      simp only [worldStep, Option.map_eq_some_iff] at h
      obtain ⟨s, hs, rfl⟩ := h
      exact .aborted hs
  | advance i input =>
      simp only [worldStep] at h
      split at h
      · cases h
      · rename_i s hs
        split at h
        · cases h
        · rename_i o ho
          cases o with
          | lock key next =>
              simp only [perform] at h
              split at h
              · cases h
              · rename_i hheld
                cases h
                exact .locked hs ho fun j t hj hne =>
                  World.not_heldByOther (by simpa using hheld) hj hne
          | write ws next =>
              simp only [perform] at h
              split at h
              · cases h
              · rename_i hblocked
                have hfree : ∀ j t, w.sessions[j]? = some t → j ≠ i →
                    ∀ a ∈ t.pending, ∀ b ∈ ws, P.clashes a b = false :=
                  fun j t hj hne a ha b hb =>
                    P.not_blocked (by simpa using hblocked) hj hne ha hb
                split at h
                · rename_i hbad
                  cases h
                  exact .raised hs ho hbad
                · rename_i hok
                  cases h
                  exact .wrote hs ho hfree (by simpa using hok)
          | call effect next => cases h; exact .called hs ho
          | commit next => cases h; exact .committed hs ho
          | rollback next => cases h; exact .rolledBack hs ho

/-- Where a session stands after a step of the world: where it stood, where an error or its
own step takes it. -/
theorem session_step {w w' : World Db Write Lock Effect Proc} {a : Action Input Arrival}
    (h : P.worldStep w a = some w') {n : ℕ} {s : Session Db Write Lock Proc}
    (hs : w.sessions[n]? = some s) :
    ∃ s', w'.sessions[n]? = some s' ∧ (s'.proc = s.proc ∨ s'.proc = P.onError s.proc ∨
      ∃ input o, P.outcome w.db s input = some o ∧ s'.proc = o.next) := by
  have hset : ∀ {i : ℕ} {t t' : Session Db Write Lock Proc}, w.sessions[i]? = some t →
      (t'.proc = t.proc ∨ t'.proc = P.onError t.proc ∨
        ∃ input o, P.outcome w.db t input = some o ∧ t'.proc = o.next) →
      ∃ s', (w.sessions.set i t')[n]? = some s' ∧ (s'.proc = s.proc ∨
        s'.proc = P.onError s.proc ∨
          ∃ input o, P.outcome w.db s input = some o ∧ s'.proc = o.next) := by
    intro i t t' ht ht'
    by_cases hin : i = n
    · subst hin
      obtain rfl : s = t := Option.some.inj (hs.symm.trans ht)
      have hlt : i < w.sessions.length := (List.getElem?_eq_some_iff.mp hs).1
      exact ⟨t', by simp [hlt], ht'⟩
    · exact ⟨s, by rw [List.getElem?_set_ne hin, hs], .inl rfl⟩
  cases stepped h with
  | arrived =>
      refine ⟨s, ?_, .inl rfl⟩
      have hlt : n < w.sessions.length := (List.getElem?_eq_some_iff.mp hs).1
      rw [List.getElem?_append_left hlt, hs]
  | looked ht => exact hset ht (.inl rfl)
  | aborted ht => exact hset ht (.inr (.inl rfl))
  | locked ht ho => exact hset ht (.inr (.inr ⟨_, _, ho, rfl⟩))
  | wrote ht ho => exact hset ht (.inr (.inr ⟨_, _, ho, rfl⟩))
  | raised ht ho => exact hset ht (.inr (.inl rfl))
  | called ht ho => exact hset ht (.inr (.inr ⟨_, _, ho, rfl⟩))
  | committed ht ho => exact hset ht (.inr (.inr ⟨_, _, ho, rfl⟩))
  | rolledBack ht ho => exact hset ht (.inr (.inr ⟨_, _, ho, rfl⟩))

end Program

/-! ## Separation of sessions -/

/-- Two sessions hold distinct locks and their pending writes do not compete. -/
structure Apart (P : Program Db Write Lock Effect Proc Input Arrival)
    (s t : Session Db Write Lock Proc) : Prop where
  locks : ∀ key ∈ s.locks, key ∉ t.locks
  pending : ∀ a ∈ s.pending, ∀ b ∈ t.pending, P.clashes a b = false

namespace Apart

variable {P : Program Db Write Lock Effect Proc Input Arrival}
  {s t : Session Db Write Lock Proc}

theorem symm (h : Apart P s t) : Apart P t s where
  locks key hkey hmem := h.locks key hmem hkey
  pending a ha b hb := by rw [P.clashes_symm]; exact h.pending b hb a ha

theorem fresh_left (p : Proc) : Apart P (.fresh p) t where
  locks := by simp
  pending := by simp

/-- Replacing a session by one with no more locks and writes keeps it apart. -/
theorem mono {s' : Session Db Write Lock Proc} (h : Apart P s t)
    (hl : ∀ key ∈ s'.locks, key ∈ s.locks) (hp : ∀ a ∈ s'.pending, a ∈ s.pending) :
    Apart P s' t where
  locks key hkey := h.locks key (hl key hkey)
  pending a ha := h.pending a (hp a ha)

end Apart

/-- Distinct sessions of a world are apart. -/
def Separated (P : Program Db Write Lock Effect Proc Input Arrival)
    (w : World Db Write Lock Effect Proc) : Prop :=
  ∀ (i j : ℕ) (s t : Session Db Write Lock Proc), i ≠ j →
    w.sessions[i]? = some s → w.sessions[j]? = some t → Apart P s t

section
variable {P : Program Db Write Lock Effect Proc Input Arrival}

/-- Replacing one session by a session that is apart from the others. -/
theorem Separated.setSession {w : World Db Write Lock Effect Proc} (h : Separated P w) {i : ℕ}
    {s' : Session Db Write Lock Proc}
    (hs' : ∀ j t, j ≠ i → w.sessions[j]? = some t → Apart P s' t) :
    Separated P (w.setSession i s') := by
  intro j k s t hjk hj hk
  simp only [World.sessions_setSession, List.getElem?_set] at hj hk
  by_cases hij : i = j
  · subst hij
    rw [if_neg hjk] at hk
    split at hj
    · split at hj
      · cases hj; exact hs' k t (Ne.symm hjk) hk
      · cases hj
    · contradiction
  · rw [if_neg hij] at hj
    by_cases hik : i = k
    · subst hik
      split at hk
      · split at hk
        · cases hk; exact (hs' j s hjk hj).symm
        · cases hk
      · contradiction
    · rw [if_neg hik] at hk
      exact h j k s t hjk hj hk

/-- Only the sessions matter for separation. -/
theorem Separated.of_sessions {w w' : World Db Write Lock Effect Proc} (h : Separated P w)
    (hs : w'.sessions = w.sessions) : Separated P w' := by
  intro i j s t hne hi hj
  rw [hs] at hi hj
  exact h i j s t hne hi hj

theorem Separated.append_fresh {w w' : World Db Write Lock Effect Proc} (h : Separated P w)
    {ps : List Proc} (hs : w'.sessions = w.sessions ++ ps.map Session.fresh) :
    Separated P w' := by
  intro i j s t hne hi hj
  rw [hs, List.getElem?_append] at hi hj
  split at hi
  · split at hj
    · exact h i j s t hne hi hj
    · simp only [List.getElem?_map, Option.map_eq_some_iff] at hj
      obtain ⟨p, -, rfl⟩ := hj
      exact (Apart.fresh_left p).symm
  · simp only [List.getElem?_map, Option.map_eq_some_iff] at hi
    obtain ⟨p, -, rfl⟩ := hi
    exact Apart.fresh_left p

variable [DecidableEq Lock]

/-- Steps keep sessions apart: a lock is acquired only when it is free, and a write
waits for the competing ones. -/
theorem Separated.step {w w' : World Db Write Lock Effect Proc} {a : Action Input Arrival}
    (h : Separated P w) (hstep : P.worldStep w a = some w') : Separated P w' := by
  have hfresh : ∀ (i : ℕ) (p : Proc), Separated P (w.setSession i (.fresh p)) :=
    fun i p => h.setSession fun j t _ _ => Apart.fresh_left p
  cases Program.stepped hstep with
  | arrived => exact h.append_fresh rfl
  | looked hs =>
      exact h.setSession fun j t hj ht => (h _ _ _ _ (Ne.symm hj) hs ht).mono
        (fun _ hk => hk) fun _ ha => ha
  | aborted => exact hfresh _ _
  | @locked i input s key next hs hp hfree =>
      refine h.setSession fun j t hj ht => ?_
      have hst := h i j s t (Ne.symm hj) hs ht
      refine ⟨fun k hk => ?_, hst.pending⟩
      rcases List.mem_cons.mp hk with rfl | hk
      · exact hfree j t ht hj
      · exact hst.locks k hk
  | @wrote i input s ws next hs hp hfree hok =>
      refine h.setSession fun j t hj ht => ?_
      have hst := h i j s t (Ne.symm hj) hs ht
      refine ⟨hst.locks, fun a ha b hb => ?_⟩
      rcases List.mem_append.mp ha with ha | ha
      · exact hst.pending a ha b hb
      · rw [P.clashes_symm]; exact hfree j t ht hj b hb a ha
  | raised => exact hfresh _ _
  | @called i input s effect next hs hp =>
      have hmoved : Separated P (w.setSession i (s.moved next)) := h.setSession fun j t hj ht =>
        (h i j s t (Ne.symm hj) hs ht).mono (fun _ hk => hk) fun _ ha => ha
      exact hmoved.of_sessions rfl
  | committed => exact (hfresh _ _).of_sessions rfl
  | rolledBack => exact hfresh _ _

end

/-! ## Invariants of all sessions -/

namespace Program

variable (P : Program Db Write Lock Effect Proc Input Arrival)

/-- Obligations for a store invariant `G` and a session invariant `L`. A session's
own steps keep its invariant under `guard`; a commit keeps the store invariant and
the invariants of the sessions that are apart from the committing one. -/
structure Invariant (guard : Db → Session Db Write Lock Proc → Input → Prop) (G : Db → Prop)
    (L : Db → Session Db Write Lock Proc → Prop) : Prop where
  arrive : ∀ {db x ws ps}, G db → P.arrive x db = some (ws, ps) →
    P.violatesAny db ws = false → G (P.applyAll db ws) ∧
      (∀ s, L db s → (∀ a ∈ s.pending, ∀ b ∈ ws, P.clashes a b = false) →
        L (P.applyAll db ws) s) ∧ ∀ p ∈ ps, L (P.applyAll db ws) (.fresh p)
  look : ∀ {db s}, G db → L db s → L db (P.looked db s)
  abort : ∀ {db s}, G db → L db s → L db (.fresh (P.onError s.proc))
  lock : ∀ {db s input key next}, G db → L db s → guard db s input →
    P.outcome db s input = some (.lock key next) → L db (s.locked key next)
  write : ∀ {db s input ws next}, G db → L db s → guard db s input →
    P.outcome db s input = some (.write ws next) →
    P.violatesAny (P.view db s) ws = false → L db (s.wrote ws next)
  call : ∀ {db s input effect next}, G db → L db s → guard db s input →
    P.outcome db s input = some (.call effect next) → L db (s.moved next)
  rollback : ∀ {db s input next}, G db → L db s → guard db s input →
    P.outcome db s input = some (.rollback next) → L db (.fresh next)
  commit : ∀ {db s input next}, G db → L db s → guard db s input →
    P.outcome db s input = some (.commit next) → G (P.view db s) ∧
      L (P.view db s) (.fresh next) ∧
      ∀ t, L db t → Apart P s t → L (P.view db s) t

/-- Obligations as above when distinct sessions also exclude each other by `X`: a commit
keeps the invariants of the sessions that exclude the committing one. -/
structure ExclusiveInvariant (X : Session Db Write Lock Proc → Session Db Write Lock Proc → Prop)
    (guard : Db → Session Db Write Lock Proc → Input → Prop) (G : Db → Prop)
    (L : Db → Session Db Write Lock Proc → Prop) : Prop where
  arrive : ∀ {db x ws ps}, G db → P.arrive x db = some (ws, ps) →
    P.violatesAny db ws = false → G (P.applyAll db ws) ∧
      (∀ s, L db s → (∀ a ∈ s.pending, ∀ b ∈ ws, P.clashes a b = false) →
        L (P.applyAll db ws) s) ∧ ∀ p ∈ ps, L (P.applyAll db ws) (.fresh p)
  look : ∀ {db s}, G db → L db s → L db (P.looked db s)
  abort : ∀ {db s}, G db → L db s → L db (.fresh (P.onError s.proc))
  lock : ∀ {db s input key next}, G db → L db s → guard db s input →
    P.outcome db s input = some (.lock key next) → L db (s.locked key next)
  write : ∀ {db s input ws next}, G db → L db s → guard db s input →
    P.outcome db s input = some (.write ws next) →
    P.violatesAny (P.view db s) ws = false → L db (s.wrote ws next)
  call : ∀ {db s input effect next}, G db → L db s → guard db s input →
    P.outcome db s input = some (.call effect next) → L db (s.moved next)
  rollback : ∀ {db s input next}, G db → L db s → guard db s input →
    P.outcome db s input = some (.rollback next) → L db (.fresh next)
  commit : ∀ {db s input next}, G db → L db s → guard db s input →
    P.outcome db s input = some (.commit next) → G (P.view db s) ∧
      L (P.view db s) (.fresh next) ∧
      ∀ t, L db t → Apart P s t → X s t → L (P.view db s) t

/-- Distinct sessions of the world exclude each other. -/
def Exclusive (X : Session Db Write Lock Proc → Session Db Write Lock Proc → Prop)
    (w : World Db Write Lock Effect Proc) : Prop := w.sessions.Pairwise X

theorem Exclusive.of_ne {X : Session Db Write Lock Proc → Session Db Write Lock Proc → Prop}
    (hsymm : ∀ s t, X s t → X t s) {w : World Db Write Lock Effect Proc} (h : Exclusive X w)
    {i j : ℕ} {s t : Session Db Write Lock Proc} (hne : i ≠ j) (hi : w.sessions[i]? = some s)
    (hj : w.sessions[j]? = some t) : X s t := by
  obtain ⟨hi', rfl⟩ := List.getElem?_eq_some_iff.mp hi
  obtain ⟨hj', rfl⟩ := List.getElem?_eq_some_iff.mp hj
  rcases Nat.lt_or_gt_of_ne hne with hlt | hlt
  · exact List.pairwise_iff_getElem.mp h i j hi' hj' hlt
  · exact hsymm _ _ (List.pairwise_iff_getElem.mp h j i hj' hi' hlt)

/-- The guard of a program invariant, read on the actions of the world. -/
def worldGuard (guard : Db → Session Db Write Lock Proc → Input → Prop)
    (w : World Db Write Lock Effect Proc) : Action Input Arrival → Prop
  | .advance i input => ∀ s, w.sessions[i]? = some s → guard w.db s input
  | _ => True

instance worldGuard.decidable (guard : Db → Session Db Write Lock Proc → Input → Prop)
    [∀ db s input, Decidable (guard db s input)] (w : World Db Write Lock Effect Proc) :
    ∀ a : Action Input Arrival, Decidable (worldGuard guard w a)
  | .arrive _ | .look _ | .abort _ => isTrue trivial
  | .advance i input =>
      match h : w.sessions[i]? with
      | none => isTrue fun s hs => by simp [h] at hs
      | some s => decidable_of_iff (guard w.db s input) (by simp [worldGuard, h])

/-- Sessions are apart, the store is good and every session is good. -/
structure Good (G : Db → Prop) (L : Db → Session Db Write Lock Proc → Prop)
    (w : World Db Write Lock Effect Proc) : Prop where
  separated : Separated P w
  store : G w.db
  session : ∀ s ∈ w.sessions, L w.db s

variable {P} {guard : Db → Session Db Write Lock Proc → Input → Prop} {G : Db → Prop}
  {L : Db → Session Db Write Lock Proc → Prop}

private theorem Good.set {w : World Db Write Lock Effect Proc} (h : P.Good G L w) {i : ℕ}
    {s : Session Db Write Lock Proc} (hs : L w.db s) :
    ∀ t ∈ (w.setSession i s).sessions, L w.db t := by
  intro t ht
  rcases List.mem_or_eq_of_mem_set ht with ht | rfl
  · exact h.session t ht
  · exact hs

/-- The obligations make the invariant hold after every guarded step between sessions that
exclude each other. -/
theorem ExclusiveInvariant.step [DecidableEq Lock]
    {X : Session Db Write Lock Proc → Session Db Write Lock Proc → Prop}
    (hI : P.ExclusiveInvariant X guard G L) (hsymm : ∀ s t, X s t → X t s)
    {w w' : World Db Write Lock Effect Proc} {a : Action Input Arrival} (h : P.Good G L w)
    (hX : Exclusive X w) (hg : worldGuard guard w a) (hstep : P.worldStep w a = some w') :
    P.Good G L w' := by
  have hsep := h.separated.step hstep
  have hL : ∀ {i s}, w.sessions[i]? = some s → L w.db s :=
    fun hs => h.session _ (List.mem_of_getElem? hs)
  cases Program.stepped hstep with
  | arrived harr hok hfree =>
      obtain ⟨hstore, hold, hnew⟩ := hI.arrive h.store harr hok
      refine ⟨hsep, hstore, fun s hs => ?_⟩
      rcases List.mem_append.mp hs with hs | hs
      · exact hold s (h.session s hs) (hfree s hs)
      · obtain ⟨p, hp, rfl⟩ := List.mem_map.mp hs
        exact hnew p hp
  | looked hs => exact ⟨hsep, h.store, h.set (hI.look h.store (hL hs))⟩
  | aborted hs => exact ⟨hsep, h.store, h.set (hI.abort h.store (hL hs))⟩
  | locked hs hp _ => exact ⟨hsep, h.store, h.set (hI.lock h.store (hL hs) (hg _ hs) hp)⟩
  | wrote hs hp _ hok =>
      exact ⟨hsep, h.store, h.set (hI.write h.store (hL hs) (hg _ hs) hp hok)⟩
  | raised hs => exact ⟨hsep, h.store, h.set (hI.abort h.store (hL hs))⟩
  | called hs hp => exact ⟨hsep, h.store, h.set (hI.call h.store (hL hs) (hg _ hs) hp)⟩
  | rolledBack hs hp =>
      exact ⟨hsep, h.store, h.set (hI.rollback h.store (hL hs) (hg _ hs) hp)⟩
  | @committed i input s next hs hp =>
      obtain ⟨hstore, hself, hothers⟩ := hI.commit h.store (hL hs) (hg _ hs) hp
      refine ⟨hsep, hstore, fun t ht => ?_⟩
      obtain ⟨j, hj⟩ := List.mem_iff_getElem?.mp ht
      simp only [World.sessions_setSession, List.getElem?_set] at hj
      by_cases hij : i = j
      · rw [if_pos hij] at hj
        split at hj
        · cases hj; exact hself
        · cases hj
      · rw [if_neg hij] at hj
        exact hothers t (hL hj) (h.separated i j s t hij hs hj) (hX.of_ne hsymm hij hs hj)

/-- The obligations make the invariant hold after every guarded step. -/
theorem Invariant.step [DecidableEq Lock] (hI : P.Invariant guard G L)
    {w w' : World Db Write Lock Effect Proc} {a : Action Input Arrival} (h : P.Good G L w)
    (hg : worldGuard guard w a) (hstep : P.worldStep w a = some w') : P.Good G L w' := by
  have hexclusive : P.ExclusiveInvariant (fun _ _ => True) guard G L :=
    { hI with
      commit := fun hG hL hguard ho =>
        have ⟨hstore, hself, hothers⟩ := hI.commit hG hL hguard ho
        ⟨hstore, hself, fun t ht hapart _ => hothers t ht hapart⟩ }
  exact hexclusive.step (fun _ _ _ => trivial) h
    (List.pairwise_iff_getElem.mpr fun _ _ _ _ _ => trivial) hg hstep

/-- The obligations make the invariant hold after every guarded run. -/
theorem Invariant.exec [DecidableEq Lock] (hI : P.Invariant guard G L)
    {w w' : World Db Write Lock Effect Proc} {as : List (Action Input Arrival)}
    (h : P.Good G L w) (hg : Run.Guarded P.worldStep (worldGuard guard) w as)
    (hrun : Run.exec P.worldStep w as = some w') : P.Good G L w' :=
  Run.invariant_guarded (fun _ _ _ => hI.step) h hg hrun

/-- Obligations without a guard make the invariant hold after every run. -/
theorem Invariant.exec_true [DecidableEq Lock] (hI : P.Invariant (fun _ _ _ => True) G L)
    {w w' : World Db Write Lock Effect Proc} {as : List (Action Input Arrival)}
    (h : P.Good G L w) (hrun : Run.exec P.worldStep w as = some w') : P.Good G L w' := by
  refine hI.exec h (Run.guarded_of_forall fun _ a _ _ _ _ => ?_) hrun
  cases a <;> simp [worldGuard]

/-- The obligations make the invariant hold after every run whose states, before each of
its steps, hold sessions that exclude each other. -/
theorem ExclusiveInvariant.exec [DecidableEq Lock]
    {X : Session Db Write Lock Proc → Session Db Write Lock Proc → Prop}
    (hI : P.ExclusiveInvariant X (fun _ _ _ => True) G L) (hsymm : ∀ s t, X s t → X t s)
    {w w' : World Db Write Lock Effect Proc} {as : List (Action Input Arrival)}
    (h : P.Good G L w) (hX : Run.Guarded P.worldStep (fun w _ => Exclusive X w) w as)
    (hrun : Run.exec P.worldStep w as = some w') : P.Good G L w' := by
  refine Run.invariant_guarded (fun u a u' hu hXu hstep => ?_) h hX hrun
  refine hI.step hsymm hu hXu ?_ hstep
  cases a <;> simp [worldGuard]

/-- A step of the world in which a statement violates a constraint. -/
def raises (P : Program Db Write Lock Effect Proc Input Arrival)
    (w : World Db Write Lock Effect Proc) : Action Input Arrival → Bool
  | .advance i input =>
      match w.sessions[i]? with
      | none => false
      | some s =>
          match P.outcome w.db s input with
          | some (.write ws _) => P.violatesAny (P.view w.db s) ws
          | _ => false
  | _ => false

theorem raises_eq_true {w : World Db Write Lock Effect Proc} {a : Action Input Arrival}
    (h : P.raises w a = true) : ∃ i input s ws next, a = .advance i input ∧
      w.sessions[i]? = some s ∧ P.outcome w.db s input = some (.write ws next) ∧
        P.violatesAny (P.view w.db s) ws = true := by
  cases a with
  | advance i input =>
      simp only [raises] at h
      split at h
      · cases h
      · rename_i s hs
        split at h
        · rename_i ws next ho
          exact ⟨i, input, s, ws, next, rfl, hs, ho, h⟩
        · cases h
  | _ => cases h

/-- No statement raises in a guarded run when the invariant rules it out. -/
theorem Invariant.not_raises [DecidableEq Lock] (hI : P.Invariant guard G L)
    (hok : ∀ {db s input ws next}, G db → L db s → guard db s input →
      P.outcome db s input = some (.write ws next) → P.violatesAny (P.view db s) ws = false)
    {w : World Db Write Lock Effect Proc} {as : List (Action Input Arrival)}
    (h : P.Good G L w) (hg : Run.Guarded P.worldStep (worldGuard guard) w as) :
    ¬Run.Occurs P.worldStep w as fun w a => P.raises w a = true := by
  refine Run.not_occurs (fun _ _ _ => hI.step) (fun u a hu hgu hraises => ?_) h hg
  obtain ⟨i, input, s, ws, next, rfl, hs, ho, hviolates⟩ := raises_eq_true hraises
  rw [hok hu.store (hu.session s (List.mem_of_getElem? hs)) (hgu s hs) ho] at hviolates
  cases hviolates

/-- No statement raises in a run of sessions that exclude each other when the invariant rules
it out. -/
theorem ExclusiveInvariant.not_raises [DecidableEq Lock]
    {X : Session Db Write Lock Proc → Session Db Write Lock Proc → Prop}
    (hI : P.ExclusiveInvariant X (fun _ _ _ => True) G L) (hsymm : ∀ s t, X s t → X t s)
    (hok : ∀ {db s input ws next}, G db → L db s →
      P.outcome db s input = some (.write ws next) → P.violatesAny (P.view db s) ws = false)
    {w : World Db Write Lock Effect Proc} {as : List (Action Input Arrival)}
    (h : P.Good G L w) (hX : Run.Guarded P.worldStep (fun w _ => Exclusive X w) w as) :
    ¬Run.Occurs P.worldStep w as fun w a => P.raises w a = true := by
  refine Run.not_occurs (fun u a u' hu hXu hstep => ?_) (fun u a hu _ hraises => ?_) h hX
  · refine hI.step hsymm hu hXu ?_ hstep
    cases a <;> simp [worldGuard]
  · obtain ⟨i, input, s, ws, next, rfl, hs, ho, hviolates⟩ := raises_eq_true hraises
    rw [hok hu.store (hu.session s (List.mem_of_getElem? hs)) ho] at hviolates
    cases hviolates

/-- Obligations for a relation between the committed store before and after: external
transactions and commits establish it. -/
structure Guarantee (P : Program Db Write Lock Effect Proc Input Arrival)
    (guard : Db → Session Db Write Lock Proc → Input → Prop) (G : Db → Prop)
    (L : Db → Session Db Write Lock Proc → Prop) (R : Db → Db → Prop) : Prop where
  refl : ∀ db, R db db
  trans : ∀ {a b c}, R a b → R b c → R a c
  arrive : ∀ {db x ws ps}, G db → P.arrive x db = some (ws, ps) →
    P.violatesAny db ws = false → R db (P.applyAll db ws)
  commit : ∀ {db s input next}, G db → L db s → guard db s input →
    P.outcome db s input = some (.commit next) → R db (P.view db s)

theorem Guarantee.step [DecidableEq Lock] {R : Db → Db → Prop} (hR : P.Guarantee guard G L R)
    {w w' : World Db Write Lock Effect Proc} {a : Action Input Arrival} (h : P.Good G L w)
    (hg : worldGuard guard w a) (hstep : P.worldStep w a = some w') : R w.db w'.db := by
  cases Program.stepped hstep with
  | arrived harr hok _ => exact hR.arrive h.store harr hok
  | committed hs hp =>
      exact hR.commit h.store (h.session _ (List.mem_of_getElem? hs)) (hg _ hs) hp
  | _ => exact hR.refl _

/-- The relation holds from the store before a guarded run to the store after it. -/
theorem Guarantee.exec [DecidableEq Lock] {R : Db → Db → Prop} (hR : P.Guarantee guard G L R)
    (hI : P.Invariant guard G L) {w w' : World Db Write Lock Effect Proc}
    {as : List (Action Input Arrival)} (h : P.Good G L w)
    (hg : Run.Guarded P.worldStep (worldGuard guard) w as)
    (hrun : Run.exec P.worldStep w as = some w') : R w.db w'.db := by
  have hnext : ∀ u a u', (P.Good G L u ∧ R w.db u.db) → worldGuard guard u a →
      P.worldStep u a = some u' → P.Good G L u' ∧ R w.db u'.db :=
    fun _ _ _ hu hgu hstep => ⟨hI.step hu.1 hgu hstep, hR.trans hu.2 (hR.step hu.1 hgu hstep)⟩
  exact (Run.invariant_guarded hnext ⟨h, hR.refl _⟩ hg hrun).2

/-- A world without sessions is good as soon as its store is. -/
theorem Good.empty {db : Db} (h : G db) : P.Good G L ⟨db, [], []⟩ where
  separated := by intro i j s t _ hi; simp at hi
  store := h
  session := by simp

/-! ## Unique constraints -/

/-- Constraints that only a conflicting row breaks: `a` makes `b` violate one exactly
when they conflict, conflicting writes of two sessions compete, and a write that violates
none keeps `U`. -/
structure Constraints (P : Program Db Write Lock Effect Proc Input Arrival)
    (conflicts : Write → Write → Bool) (U : Db → Prop) : Prop where
  violates_apply : ∀ db a b, P.violates (P.apply db a) b = (P.violates db b || conflicts a b)
  clashes : ∀ {a b}, P.clashes a b = false → conflicts a b = false
  keep : ∀ {db a}, U db → P.violates db a = false → U (P.apply db a)

namespace Constraints

variable {conflicts : Write → Write → Bool} {U : Db → Prop}

theorem violates_applyAll (hC : Constraints P conflicts U) (db : Db) (ws : List Write)
    (b : Write) :
    P.violates (P.applyAll db ws) b = (P.violates db b || ws.any fun a => conflicts a b) := by
  induction ws generalizing db with
  | nil => simp
  | cons w ws ih => rw [applyAll_cons, ih, hC.violates_apply, List.any_cons, Bool.or_assoc]

/-- Writes violate nothing in turn when none violates anything by itself and no earlier one
conflicts with a later one. -/
theorem violatesAny_eq_false (hC : Constraints P conflicts U) (db : Db) (ws : List Write) :
    P.violatesAny db ws = false ↔
      (∀ w ∈ ws, P.violates db w = false) ∧ ws.Pairwise fun a b => conflicts a b = false := by
  induction ws generalizing db with
  | nil => simp [violatesAny]
  | cons w ws ih =>
      rw [violatesAny, Bool.or_eq_false_iff, ih, List.forall_mem_cons, List.pairwise_cons]
      simp only [hC.violates_apply, Bool.or_eq_false_iff]
      constructor
      · rintro ⟨hw, hws, hpair⟩
        exact ⟨⟨hw, fun b hb => (hws b hb).1⟩, fun b hb => (hws b hb).2, hpair⟩
      · rintro ⟨⟨hw, hws⟩, hconf, hpair⟩
        exact ⟨hw, fun b hb => ⟨hws b hb, hconf b hb⟩, hpair⟩

/-- Pending writes violate nothing after writes that do not compete with them. -/
theorem violatesAny_applyAll (hC : Constraints P conflicts U) {db : Db} {ws vs : List Write}
    (h : P.violatesAny db vs = false) (hfree : ∀ a ∈ ws, ∀ b ∈ vs, P.clashes a b = false) :
    P.violatesAny (P.applyAll db ws) vs = false := by
  rw [hC.violatesAny_eq_false] at h ⊢
  refine ⟨fun b hb => ?_, h.2⟩
  rw [hC.violates_applyAll, Bool.or_eq_false_iff]
  exact ⟨h.1 b hb, List.any_eq_false.mpr fun a ha => by simpa using hC.clashes (hfree a ha b hb)⟩

theorem violatesAny_append (P : Program Db Write Lock Effect Proc Input Arrival) (db : Db)
    (ws vs : List Write) :
    P.violatesAny db (ws ++ vs) = (P.violatesAny db ws || P.violatesAny (P.applyAll db ws) vs) := by
  induction ws generalizing db with
  | nil => simp [violatesAny]
  | cons w ws ih => simp [violatesAny, ih, Bool.or_assoc]

theorem keep_applyAll (hC : Constraints P conflicts U) {db : Db} {ws : List Write} (h : U db)
    (hws : P.violatesAny db ws = false) : U (P.applyAll db ws) := by
  induction ws generalizing db with
  | nil => exact h
  | cons w ws ih =>
      obtain ⟨hw, hrest⟩ := Bool.or_eq_false_iff.mp hws
      exact ih (hC.keep h hw) hrest

/-- The store meets the constraints, and the pending writes of every session can be
committed without breaking one. -/
structure Met (P : Program Db Write Lock Effect Proc Input Arrival) (U : Db → Prop)
    (w : World Db Write Lock Effect Proc) : Prop where
  separated : Separated P w
  store : U w.db
  pending : ∀ s ∈ w.sessions, P.violatesAny w.db s.pending = false

theorem Met.empty {db : Db} (h : U db) : Met P U ⟨db, [], []⟩ where
  separated := by intro i j s t _ hi; simp at hi
  store := h
  pending := by simp

private theorem Met.set {w : World Db Write Lock Effect Proc} (h : Met P U w) {i : ℕ}
    {s : Session Db Write Lock Proc} (hs : P.violatesAny w.db s.pending = false) :
    ∀ t ∈ (w.setSession i s).sessions, P.violatesAny w.db t.pending = false := by
  intro t ht
  rcases List.mem_or_eq_of_mem_set ht with ht | rfl
  · exact h.pending t ht
  · exact hs

/-- The constraints stay met, whatever the sessions do. -/
theorem Met.step [DecidableEq Lock] (hC : Constraints P conflicts U)
    {w w' : World Db Write Lock Effect Proc} {a : Action Input Arrival} (h : Met P U w)
    (hstep : P.worldStep w a = some w') : Met P U w' := by
  have hsep := h.separated.step hstep
  have hpend : ∀ {i : ℕ} {s : Session Db Write Lock Proc}, w.sessions[i]? = some s →
      P.violatesAny w.db s.pending = false :=
    fun hs => h.pending _ (List.mem_of_getElem? hs)
  have hnil : ∀ (db : Db) (p : Proc),
      P.violatesAny db (Session.fresh p : Session Db Write Lock Proc).pending = false :=
    fun _ _ => rfl
  cases Program.stepped hstep with
  | arrived harr hok hfree =>
      refine ⟨hsep, hC.keep_applyAll h.store hok, fun s hs => ?_⟩
      rcases List.mem_append.mp hs with hs | hs
      · refine hC.violatesAny_applyAll (h.pending s hs) fun a ha b hb => ?_
        rw [P.clashes_symm]
        exact hfree s hs b hb a ha
      · obtain ⟨p, -, rfl⟩ := List.mem_map.mp hs
        exact hnil _ p
  | looked hs =>
      have hs' := hpend hs
      exact ⟨hsep, h.store, h.set hs'⟩
  | aborted => exact ⟨hsep, h.store, h.set (hnil _ _)⟩
  | locked hs =>
      have hs' := hpend hs
      exact ⟨hsep, h.store, h.set hs'⟩
  | wrote hs hp _ hok =>
      refine ⟨hsep, h.store, h.set ?_⟩
      rw [Session.wrote, violatesAny_append, hpend hs]
      exact hok
  | raised => exact ⟨hsep, h.store, h.set (hnil _ _)⟩
  | called hs =>
      have hs' := hpend hs
      exact ⟨hsep, h.store, h.set hs'⟩
  | rolledBack => exact ⟨hsep, h.store, h.set (hnil _ _)⟩
  | @committed i input s next hs hp =>
      refine ⟨hsep, hC.keep_applyAll h.store (hpend hs), fun t ht => ?_⟩
      obtain ⟨j, hj⟩ := List.mem_iff_getElem?.mp ht
      simp only [World.sessions_setSession, List.getElem?_set] at hj
      by_cases hij : i = j
      · rw [if_pos hij] at hj
        split at hj
        · cases hj; exact hnil _ _
        · cases hj
      · rw [if_neg hij] at hj
        exact hC.violatesAny_applyAll (hpend hj) (h.separated i j s t hij hs hj).pending

/-- The constraints are met after every run. -/
theorem Met.exec [DecidableEq Lock] (hC : Constraints P conflicts U)
    {w w' : World Db Write Lock Effect Proc} {as : List (Action Input Arrival)}
    (h : Met P U w) (hrun : Run.exec P.worldStep w as = some w') : Met P U w' :=
  Run.invariant_exec (fun _ _ _ hu ha => Met.step hC hu ha) h hrun

end Constraints

end Program

end Transaction
