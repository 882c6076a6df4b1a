import RevenueRecovery.Lib.Transaction

/-!
# Runs of one session

While only one session moves, its steps act on the committed store and on the session
alone: rows it writes stay pending, a commit stores all of them, and a transaction that
ends otherwise leaves nothing. A property of store, session and the rows written so far
that one step keeps holds at the end of the run.

## Main definitions
* `Action.isOf` : an action of one session.
* `World.join` : a fresh session joins the world.
* `Program.SoloStepped` : what an action of a session does to the store and the session.
* `Program.writtenBy` : the rows the actions of a run write.
* `Program.solo_exec` : the rule for runs of one session.
-/
namespace Transaction

variable {Db Write Lock Effect Proc Input Arrival : Type*}

/-- The action is one of session `i`. -/
def Action.isOf (i : ℕ) : Action Input Arrival → Prop
  | .arrive _ => False
  | .look j | .advance j _ | .abort j => j = i

/-- A fresh session joins the world. -/
def World.join (w : World Db Write Lock Effect Proc) (p : Proc) :
    World Db Write Lock Effect Proc :=
  { w with sessions := w.sessions ++ [.fresh p] }

@[simp] theorem World.db_join (w : World Db Write Lock Effect Proc) (p : Proc) :
    (w.join p).db = w.db := rfl

@[simp] theorem World.sessions_join (w : World Db Write Lock Effect Proc) (p : Proc) :
    (w.join p).sessions[w.sessions.length]? = some (.fresh p) := by
  simp [join]

namespace Program

variable (P : Program Db Write Lock Effect Proc Input Arrival)

/-- The rows an action writes. -/
def written (w : World Db Write Lock Effect Proc) : Action Input Arrival → List Write
  | .advance i input =>
      match w.sessions[i]? with
      | none => []
      | some s =>
          match P.outcome w.db s input with
          | some (.write ws _) => if P.violatesAny (P.view w.db s) ws then [] else ws
          | _ => []
  | _ => []

/-- What an outcome does to the store and the session when nothing is in its way, and the
rows it writes. -/
def Performed (db : Db) (s : Session Db Write Lock Proc) :
    Outcome Write Lock Effect Proc → List Write → Db → Session Db Write Lock Proc → Prop
  | .lock key next, ws, db', s' => ws = [] ∧ db' = db ∧ s' = s.locked key next
  | .write vs next, ws, db', s' => db' = db ∧
      (P.violatesAny (P.view db s) vs = true ∧ ws = [] ∧ s' = .fresh (P.onError s.proc) ∨
        P.violatesAny (P.view db s) vs = false ∧ ws = vs ∧ s' = s.wrote vs next)
  | .call _ next, ws, db', s' => ws = [] ∧ db' = db ∧ s' = s.moved next
  | .commit next, ws, db', s' => ws = [] ∧ db' = P.view db s ∧ s' = .fresh next
  | .rollback next, ws, db', s' => ws = [] ∧ db' = db ∧ s' = .fresh next

/-- What an action of a session does to the store and the session, and what it writes. -/
inductive SoloStepped (db : Db) (s : Session Db Write Lock Proc) :
    Action Input Arrival → List Write → Db → Session Db Write Lock Proc → Prop
  | looked {i} : SoloStepped db s (.look i) [] db (P.looked db s)
  | aborted {i} : SoloStepped db s (.abort i) [] db (.fresh (P.onError s.proc))
  | performed {i input o ws db' s'} (ho : P.outcome db s input = some o)
      (h : P.Performed db s o ws db' s') : SoloStepped db s (.advance i input) ws db' s'

variable {P}

variable [DecidableEq Lock]

/-- The steps of a session are the listed ones. -/
theorem soloStepped {w w' : World Db Write Lock Effect Proc} {a : Action Input Arrival} {i : ℕ}
    {s : Session Db Write Lock Proc} (h : P.worldStep w a = some w') (ha : a.isOf i)
    (hs : w.sessions[i]? = some s) :
    ∃ s', w'.sessions[i]? = some s' ∧ P.SoloStepped w.db s a (P.written w a) w'.db s' := by
  have hlt : i < w.sessions.length := (List.getElem?_eq_some_iff.mp hs).1
  have hset : ∀ t : Session Db Write Lock Proc, (w.sessions.set i t)[i]? = some t := by
    intro t
    simp [hlt]
  cases Program.stepped h with
  | arrived => exact absurd ha id
  | @looked j t ht =>
      obtain rfl : j = i := ha
      obtain rfl : t = s := Option.some.inj (ht.symm.trans hs)
      exact ⟨_, hset _, .looked⟩
  | @aborted j t ht =>
      obtain rfl : j = i := ha
      obtain rfl : t = s := Option.some.inj (ht.symm.trans hs)
      exact ⟨_, hset _, .aborted⟩
  | @locked j input t key next ht ho =>
      obtain rfl : j = i := ha
      obtain rfl : t = s := Option.some.inj (ht.symm.trans hs)
      exact ⟨_, hset _, by simpa [written, hs, ho] using .performed ho ⟨rfl, rfl, rfl⟩⟩
  | @wrote j input t ws next ht ho hfree hok =>
      obtain rfl : j = i := ha
      obtain rfl : t = s := Option.some.inj (ht.symm.trans hs)
      exact ⟨_, hset _, by simpa [written, hs, ho, hok] using .performed ho ⟨rfl, .inr ⟨hok, rfl, rfl⟩⟩⟩
  | @raised j input t ws next ht ho hbad =>
      obtain rfl : j = i := ha
      obtain rfl : t = s := Option.some.inj (ht.symm.trans hs)
      exact ⟨_, hset _, by simpa [written, hs, ho, hbad] using .performed ho ⟨rfl, .inl ⟨hbad, rfl, rfl⟩⟩⟩
  | @called j input t effect next ht ho =>
      obtain rfl : j = i := ha
      obtain rfl : t = s := Option.some.inj (ht.symm.trans hs)
      exact ⟨_, hset _, by simpa [written, hs, ho] using .performed ho ⟨rfl, rfl, rfl⟩⟩
  | @committed j input t next ht ho =>
      obtain rfl : j = i := ha
      obtain rfl : t = s := Option.some.inj (ht.symm.trans hs)
      exact ⟨_, hset _, by simpa [written, hs, ho] using .performed ho ⟨rfl, rfl, rfl⟩⟩
  | @rolledBack j input t next ht ho =>
      obtain rfl : j = i := ha
      obtain rfl : t = s := Option.some.inj (ht.symm.trans hs)
      exact ⟨_, hset _, by simpa [written, hs, ho] using .performed ho ⟨rfl, rfl, rfl⟩⟩

variable (P) in
/-- The rows the actions of a run write, in order. -/
def writtenBy (w : World Db Write Lock Effect Proc) (as : List (Action Input Arrival)) :
    List Write :=
  (Run.collect P.worldStep (fun u a => some (P.written u a)) w as).flatten

/-- What every action of a session keeps of the rows written, the store and the session holds
at the end of a run of that session. -/
theorem solo_exec (Inv : List Write → Db → Session Db Write Lock Proc → Prop)
    {allowed : Action Input Arrival → Prop}
    (hstep : ∀ {ws db s a vs db' s'}, Inv ws db s → allowed a →
      P.SoloStepped db s a vs db' s' → Inv (ws ++ vs) db' s')
    {w w' : World Db Write Lock Effect Proc} {as : List (Action Input Arrival)} {i : ℕ}
    {s s' : Session Db Write Lock Proc} (hs : w.sessions[i]? = some s) (hinv : Inv [] w.db s)
    (hown : ∀ a ∈ as, a.isOf i ∧ allowed a) (hrun : Run.exec P.worldStep w as = some w')
    (hs' : w'.sessions[i]? = some s') : Inv (P.writtenBy w as) w'.db s' := by
  have hsolo : ∃ t, w'.sessions[i]? = some t ∧ Inv (P.writtenBy w as) w'.db t := by
    have hstart : ∃ t, w.sessions[i]? = some t ∧ Inv ([] : List (List Write)).flatten w.db t :=
      ⟨s, hs, hinv⟩
    refine Run.invariant_collect
      (fun wss u => ∃ t, u.sessions[i]? = some t ∧ Inv wss.flatten u.db t)
      (fun wss u a u' hu ha hstep' => ?_) hstart hown hrun
    obtain ⟨t, ht, hinv⟩ := hu
    obtain ⟨t', ht', hsolo⟩ := soloStepped hstep' ha.1 ht
    exact ⟨t', ht', by simpa using hstep hinv ha.2 hsolo⟩
  obtain ⟨t, ht, hinv⟩ := hsolo
  obtain rfl : t = s' := Option.some.inj (ht.symm.trans hs')
  exact hinv

end Program

end Transaction
