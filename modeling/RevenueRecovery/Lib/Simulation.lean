import RevenueRecovery.Lib.Transaction

/-!
# Simulation of transactional programs

Two programs over one store whose sessions correspond by a function of their states. When
each step of the first is matched by steps of the second, every world the first reaches is
one the second reaches, session by session. A state that reads nothing between its steps
need not keep the views the first program records there.

## Main definitions
* `Session.map`, `World.map` : the sessions of the first program as sessions of the second.
* `Matched` : how the second program matches a step.
* `Simulates`, `Simulates.exec` : the obligations, and what they yield for runs.
-/
namespace Transaction

variable {Db Write Lock Effect Proc Proc' Input Input' Arrival Arrival' : Type*}

/-- The session with the corresponding state. -/
def Session.map (f : Proc → Proc') (reading : Proc → Bool) (s : Session Db Write Lock Proc) :
    Session Db Write Lock Proc' where
  proc := f s.proc
  pending := s.pending
  locks := s.locks
  views := if reading s.proc then s.views else []

/-- The world with the corresponding sessions. -/
def World.map (f : Proc → Proc') (reading : Proc → Bool) (w : World Db Write Lock Effect Proc) :
    World Db Write Lock Effect Proc' where
  db := w.db
  sessions := w.sessions.map (Session.map f reading)
  calls := w.calls

section Map
variable (f : Proc → Proc') (reading : Proc → Bool)

@[simp] theorem Session.proc_map (s : Session Db Write Lock Proc) :
    (s.map f reading).proc = f s.proc := rfl
@[simp] theorem Session.pending_map (s : Session Db Write Lock Proc) :
    (s.map f reading).pending = s.pending := rfl
@[simp] theorem Session.locks_map (s : Session Db Write Lock Proc) :
    (s.map f reading).locks = s.locks := rfl
@[simp] theorem World.db_map (w : World Db Write Lock Effect Proc) :
    (w.map f reading).db = w.db := rfl
@[simp] theorem World.calls_map (w : World Db Write Lock Effect Proc) :
    (w.map f reading).calls = w.calls := rfl

@[simp] theorem Session.map_fresh (p : Proc) :
    (Session.fresh p : Session Db Write Lock Proc).map f reading = .fresh (f p) := by
  unfold Session.map Session.fresh
  split <;> rfl

@[simp] theorem Session.map_locked (s : Session Db Write Lock Proc) (key : Lock) (next : Proc) :
    (s.locked key next).map f reading = (s.map f reading).locked key (f next) := by
  unfold Session.map Session.locked
  split <;> split <;> rfl

@[simp] theorem Session.map_wrote (s : Session Db Write Lock Proc) (ws : List Write)
    (next : Proc) : (s.wrote ws next).map f reading = (s.map f reading).wrote ws (f next) := by
  unfold Session.map Session.wrote
  split <;> split <;> rfl

@[simp] theorem Session.map_moved (s : Session Db Write Lock Proc) (next : Proc) :
    (s.moved next).map f reading = (s.map f reading).moved (f next) := by
  unfold Session.map Session.moved
  split <;> split <;> rfl

theorem World.getElem?_map (w : World Db Write Lock Effect Proc) (i : ℕ) :
    (w.map f reading).sessions[i]? = (w.sessions[i]?).map (Session.map f reading) :=
  List.getElem?_map ..

theorem World.map_setSession (w : World Db Write Lock Effect Proc) (i : ℕ)
    (s : Session Db Write Lock Proc) :
    (w.setSession i s).map f reading = (w.map f reading).setSession i (s.map f reading) := by
  simp [World.map, World.setSession, List.map_set]

/-- A session whose correspondent does not change leaves the corresponding world as it is. -/
theorem World.map_setSession_self {w : World Db Write Lock Effect Proc} {i : ℕ}
    {s s' : Session Db Write Lock Proc} (hs : w.sessions[i]? = some s)
    (h : s'.map f reading = s.map f reading) :
    (w.setSession i s').map f reading = w.map f reading := by
  obtain ⟨hlt, rfl⟩ := List.getElem?_eq_some_iff.mp hs
  have hset : (w.sessions.map (Session.map f reading)).set i (s'.map f reading) =
      w.sessions.map (Session.map f reading) := by
    rw [h]
    refine List.ext_getElem? fun j => ?_
    rw [List.getElem?_set]
    split
    · rename_i hij
      subst hij
      simp [hlt]
    · rfl
  simp only [World.map, World.setSession, List.map_set, hset]

theorem World.heldByOther_map [DecidableEq Lock] (w : World Db Write Lock Effect Proc) (i : ℕ)
    (key : Lock) : (w.map f reading).heldByOther i key = w.heldByOther i key := by
  unfold World.heldByOther World.map
  rw [List.zipIdx_map, List.any_map]
  rfl

end Map

namespace Program

variable {P : Program Db Write Lock Effect Proc Input Arrival}
  {P' : Program Db Write Lock Effect Proc' Input' Arrival'} {f : Proc → Proc'}
  {reading : Proc → Bool}

/-- How a step of a session is matched: by the same step, by none, by two, or by the death
of the session. -/
inductive Matched (P' : Program Db Write Lock Effect Proc' Input' Arrival') (f : Proc → Proc')
    (reading : Proc → Bool) (db : Db) (s : Session Db Write Lock Proc) :
    Outcome Write Lock Effect Proc → Prop
  | same {o} (input : Input') (h : P'.outcome db (s.map f reading) input = some (o.map f)) :
      Matched P' f reading db s o
  | idle {next} (hf : f next = f s.proc) (hs : reading s.proc = false) :
      Matched P' f reading db s (.write [] next)
  | twice {next} (input input' : Input') (mid : Proc')
      (h : P'.outcome db (s.map f reading) input = some (.write [] mid))
      (h' : P'.outcome db ((s.map f reading).wrote [] mid) input' = some (.write [] (f next))) :
      Matched P' f reading db s (.write [] next)
  | died {next} (hf : f next = P'.onError (f s.proc)) : Matched P' f reading db s (.rollback next)

/-- The obligations of a simulation. An arrival is matched by one without sessions, and by
one for each session it starts. -/
structure Simulates (P : Program Db Write Lock Effect Proc Input Arrival)
    (P' : Program Db Write Lock Effect Proc' Input' Arrival') (f : Proc → Proc')
    (reading : Proc → Bool) : Prop where
  apply : P'.apply = P.apply
  violates : P'.violates = P.violates
  clashes : P'.clashes = P.clashes
  onError : ∀ p, P'.onError (f p) = f (P.onError p)
  arrive : ∀ {db x ws ps}, P.arrive x db = some (ws, ps) →
    (∃ y, P'.arrive y db = some (ws, [])) ∧
      ∀ p ∈ ps, ∃ y, ∀ db', P'.arrive y db' = some ([], [f p])
  step : ∀ {db s input o}, P.outcome db s input = some o → Matched P' f reading db s o

namespace Simulates

variable (hS : Simulates P P' f reading)
include hS

theorem applyAll (db : Db) (ws : List Write) : P'.applyAll db ws = P.applyAll db ws := by
  rw [Program.applyAll, Program.applyAll, hS.apply]

theorem view (db : Db) (s : Session Db Write Lock Proc) :
    P'.view db (s.map f reading) = P.view db s := hS.applyAll db s.pending

theorem violatesAny (db : Db) (ws : List Write) : P'.violatesAny db ws = P.violatesAny db ws := by
  induction ws generalizing db with
  | nil => rfl
  | cons a ws ih => rw [Program.violatesAny, Program.violatesAny, hS.violates, hS.apply, ih]

theorem blocked (w : World Db Write Lock Effect Proc) (i : ℕ) (ws : List Write) :
    P'.blocked (w.map f reading) i ws = P.blocked w i ws := by
  unfold Program.blocked World.map
  rw [List.zipIdx_map, List.any_map, hS.clashes]
  rfl

variable [DecidableEq Lock]

/-- Outcomes are carried out alike. -/
theorem perform (w : World Db Write Lock Effect Proc) (i : ℕ) (s : Session Db Write Lock Proc)
    (o : Outcome Write Lock Effect Proc) :
    P'.perform (w.map f reading) i (s.map f reading) (o.map f) =
      (P.perform w i s o).map (World.map f reading) := by
  cases o with
  | lock key next =>
      simp only [Outcome.map, Program.perform, World.heldByOther_map]
      split
      · rfl
      · rw [Option.map_some, World.map_setSession, Session.map_locked]
  | write ws next =>
      simp only [Outcome.map, Program.perform, hS.blocked, World.db_map, hS.view, hS.violatesAny,
        Session.proc_map]
      split
      · rfl
      · split
        · rw [Option.map_some, World.map_setSession, Session.map_fresh, hS.onError]
        · rw [Option.map_some, World.map_setSession, Session.map_wrote]
  | call effect next =>
      simp only [Outcome.map, Program.perform, Option.map_some, Option.some.injEq]
      simp [World.map, World.setSession, List.map_set]
  | commit next =>
      simp only [Outcome.map, Program.perform, Option.map_some, Option.some.injEq, World.db_map,
        hS.view]
      simp [World.map, World.setSession, List.map_set]
  | rollback next =>
      simp only [Outcome.map, Program.perform, Option.map_some, World.map_setSession,
        Session.map_fresh]

omit hS in
/-- A write of no rows is always carried out. -/
theorem perform_nil (w : World Db Write Lock Effect Proc) (i : ℕ)
    (s : Session Db Write Lock Proc) (next : Proc) :
    P.perform w i s (.write [] next) = some (w.setSession i (s.wrote [] next)) := by
  have hfree : P.blocked w i [] = false := by simp [Program.blocked]
  have hok : P.violatesAny (P.view w.db s) [] = false := rfl
  simp [Program.perform, hfree, hok]

/-- A step of a session is matched. -/
theorem advance {w w' : World Db Write Lock Effect Proc} {i : ℕ} {input : Input}
    (h : P.worldStep w (.advance i input) = some w') :
    ∃ as, Run.exec P'.worldStep (w.map f reading) as = some (w'.map f reading) := by
  simp only [Program.worldStep] at h
  split at h
  · cases h
  · rename_i s hs
    have hs' : (w.map f reading).sessions[i]? = some (s.map f reading) := by
      rw [World.getElem?_map, hs, Option.map_some]
    split at h
    · cases h
    · rename_i o ho
      cases hS.step ho with
      | same input' hsame =>
          refine ⟨[.advance i input'], ?_⟩
          have hstep : P'.worldStep (w.map f reading) (.advance i input') =
              some (w'.map f reading) := by
            simp only [Program.worldStep, hs', World.db_map, hsame, hS.perform, h, Option.map_some]
          simp [hstep]
      | @idle next hf hread =>
          rw [perform_nil] at h
          obtain rfl := Option.some.inj h
          refine ⟨[], ?_⟩
          have hsame : (s.wrote [] next).map f reading = s.map f reading := by
            simp [Session.map, Session.wrote, hf, hread]
          rw [Run.exec_nil, World.map_setSession_self f reading hs hsame]
      | @twice next input₁ input₂ mid h₁ h₂ =>
          rw [perform_nil] at h
          obtain rfl := Option.some.inj h
          refine ⟨[.advance i input₁, .advance i input₂], ?_⟩
          have hlt : i < (w.map f reading).sessions.length := (List.getElem?_eq_some_iff.mp hs').1
          have hmid : P'.worldStep (w.map f reading) (.advance i input₁) =
              some ((w.map f reading).setSession i ((s.map f reading).wrote [] mid)) := by
            simp only [Program.worldStep, hs', World.db_map, h₁, perform_nil]
          have hlast : P'.worldStep ((w.map f reading).setSession i
              ((s.map f reading).wrote [] mid)) (.advance i input₂) =
              some ((w.setSession i (s.wrote [] next)).map f reading) := by
            simp only [Program.worldStep, World.sessions_setSession, List.getElem?_set_self hlt,
              World.db_setSession, World.db_map, h₂, perform_nil, World.map_setSession,
              Session.map_wrote]
            simp [World.setSession, Session.wrote]
          simp [hmid, hlast]
      | @died next hf =>
          refine ⟨[.abort i], ?_⟩
          have hw : w.setSession i (.fresh next) = w' := Option.some.inj h
          have hstep : P'.worldStep (w.map f reading) (.abort i) = some (w'.map f reading) := by
            simp only [Program.worldStep, hs', Option.map_some, ← hw, World.map_setSession,
              Session.map_fresh, Session.proc_map, hf]
          simp [hstep]

omit hS in
/-- Sessions that arrive one by one. -/
theorem arrivals {ps : List Proc'} (h : ∀ p ∈ ps, ∃ y, ∀ db, P'.arrive y db = some ([], [p]))
    (w : World Db Write Lock Effect Proc') :
    ∃ as, Run.exec P'.worldStep w as =
      some { w with sessions := w.sessions ++ ps.map Session.fresh } := by
  induction ps generalizing w with
  | nil => exact ⟨[], by simp⟩
  | cons p ps ih =>
      obtain ⟨y, hy⟩ := h p List.mem_cons_self
      obtain ⟨as, has⟩ := ih (fun q hq => h q (List.mem_cons_of_mem _ hq))
        { w with sessions := w.sessions ++ [Session.fresh p] }
      refine ⟨.arrive y :: as, ?_⟩
      have hstep : P'.worldStep w (.arrive y) =
          some { w with sessions := w.sessions ++ [Session.fresh p] } := by
        have hfree : P'.blocked w w.sessions.length [] = false := by simp [Program.blocked]
        have hok : P'.violatesAny w.db [] = false := rfl
        simp [Program.worldStep, hy, hok, hfree]
      simp [hstep, has]

/-- An arrival is matched by one for each session it starts. -/
theorem arrived {w w' : World Db Write Lock Effect Proc} {x : Arrival}
    (h : P.worldStep w (.arrive x) = some w') :
    ∃ as, Run.exec P'.worldStep (w.map f reading) as = some (w'.map f reading) := by
  simp only [Program.worldStep] at h
  split at h
  · cases h
  · rename_i ws ps harr
    split at h
    · cases h
    · rename_i hok
      obtain rfl := Option.some.inj h
      obtain ⟨⟨y, hy⟩, hps⟩ := hS.arrive harr
      have hstart : ∀ q ∈ ps.map f, ∃ y, ∀ db, P'.arrive y db = some ([], [q]) := by
        intro q hq
        obtain ⟨p, hp, rfl⟩ := List.mem_map.mp hq
        exact hps p hp
      obtain ⟨as, has⟩ := arrivals hstart
        { w.map f reading with db := P'.applyAll w.db ws }
      refine ⟨.arrive y :: as, ?_⟩
      have hlength : (w.map f reading).sessions.length = w.sessions.length := by simp [World.map]
      have hstep : P'.worldStep (w.map f reading) (.arrive y) =
          some { w.map f reading with db := P'.applyAll w.db ws } := by
        simp only [Program.worldStep, World.db_map, hy, hS.violatesAny, hlength, hS.blocked, hok]
        simp
      rw [Run.exec_cons, hstep, Option.bind_some, has]
      simp [World.map, hS.applyAll, Function.comp_def]

/-- Every step of the first program is matched by steps of the second. -/
theorem worldStep {w w' : World Db Write Lock Effect Proc} {a : Action Input Arrival}
    (h : P.worldStep w a = some w') :
    ∃ as, Run.exec P'.worldStep (w.map f reading) as = some (w'.map f reading) := by
  cases a with
  | arrive x => exact hS.arrived h
  | advance i input => exact hS.advance h
  | look i =>
      obtain ⟨s, hs, rfl⟩ := Option.map_eq_some_iff.mp h
      have hs' : (w.map f reading).sessions[i]? = some (s.map f reading) := by
        rw [World.getElem?_map, hs, Option.map_some]
      by_cases hread : reading s.proc = true
      · refine ⟨[.look i], ?_⟩
        have hlooked : (P.looked w.db s).map f reading = P'.looked w.db (s.map f reading) := by
          have hview : P'.view w.db (s.map f reading) = P.view w.db s := hS.view w.db s
          rw [Session.map] at hview
          simp [Session.map, Program.looked, hread, ← hview]
        simp [Program.worldStep, hs', World.map_setSession, hlooked]
      · refine ⟨[], ?_⟩
        have hsame : (P.looked w.db s).map f reading = s.map f reading := by
          simp [Session.map, Program.looked, hread]
        rw [Run.exec_nil, World.map_setSession_self f reading hs hsame]
  | abort i =>
      obtain ⟨s, hs, rfl⟩ := Option.map_eq_some_iff.mp h
      have hs' : (w.map f reading).sessions[i]? = some (s.map f reading) := by
        rw [World.getElem?_map, hs, Option.map_some]
      refine ⟨[.abort i], ?_⟩
      simp [Program.worldStep, hs', World.map_setSession, hS.onError]

/-- Every world the first program reaches corresponds to one that the second reaches. -/
theorem exec {w w' : World Db Write Lock Effect Proc} {as : List (Action Input Arrival)}
    (h : Run.exec P.worldStep w as = some w') :
    ∃ as', Run.exec P'.worldStep (w.map f reading) as' = some (w'.map f reading) := by
  induction as generalizing w with
  | nil => cases h; exact ⟨[], rfl⟩
  | cons a as ih =>
      obtain ⟨u, ha, hrest⟩ := Option.bind_eq_some_iff.mp h
      obtain ⟨bs, hbs⟩ := hS.worldStep ha
      obtain ⟨cs, hcs⟩ := ih hrest
      exact ⟨bs ++ cs, by rw [Run.exec_append_of_eq hbs, hcs]⟩

/-! ## Invariants -/

variable {G : Db → Prop} {L : Db → Session Db Write Lock Proc' → Prop}

omit [DecidableEq Lock] in
/-- What holds of the sessions of the second program holds of those of the first. -/
theorem good {w : World Db Write Lock Effect Proc} (h : P'.Good G L (w.map f reading)) :
    P.Good G (fun db s => L db (s.map f reading)) w where
  separated i j s t hne hi hj := by
    have hi' : (w.map f reading).sessions[i]? = some (s.map f reading) := by
      rw [World.getElem?_map, hi, Option.map_some]
    have hj' : (w.map f reading).sessions[j]? = some (t.map f reading) := by
      rw [World.getElem?_map, hj, Option.map_some]
    have hapart := h.separated i j _ _ hne hi' hj'
    refine ⟨hapart.locks, fun a ha b hb => ?_⟩
    rw [← hS.clashes]
    exact hapart.pending a ha b hb
  store := h.store
  session s hs := h.session _ (List.mem_map_of_mem hs)

/-- An invariant of the second program is carried on by the steps of the first. -/
theorem good_step (hI : P'.Invariant (fun _ _ _ => True) G L)
    {w w' : World Db Write Lock Effect Proc} {a : Action Input Arrival}
    (h : P'.Good G L (w.map f reading)) (hstep : P.worldStep w a = some w') :
    P'.Good G L (w'.map f reading) := by
  obtain ⟨as, has⟩ := hS.worldStep hstep
  exact hI.exec_true h has

end Simulates

end Program

end Transaction
