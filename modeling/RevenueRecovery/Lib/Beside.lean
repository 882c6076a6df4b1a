import RevenueRecovery.Lib.Provenance

/-!
# Programs beside each other

Sessions of two programs run against one store. What accounts for the writes of each accounts
for the writes of both.

## Main definitions
* `Program.beside` : the sessions of two programs on one store.
* `Program.Provenance.beside` : their obligations together.
-/
namespace Transaction

variable {Db Write Lock Effect Proc Proc' Input Input' Arrival Arrival' : Type*}

/-- The session as one that stands elsewhere. -/
def Session.standing (s : Session Db Write Lock Proc) (p : Proc') :
    Session Db Write Lock Proc' where
  proc := p
  pending := s.pending
  locks := s.locks
  views := s.views

@[simp] theorem Session.proc_standing (s : Session Db Write Lock Proc) (p : Proc') :
    (s.standing p).proc = p := rfl
@[simp] theorem Session.pending_standing (s : Session Db Write Lock Proc) (p : Proc') :
    (s.standing p).pending = s.pending := rfl

namespace Program

/-- Sessions of either program, on the store of the first. A step has an input for each. -/
def beside (P : Program Db Write Lock Effect Proc Input Arrival)
    (Q : Program Db Write Lock Effect Proc' Input' Arrival') :
    Program Db Write Lock Effect (Proc ⊕ Proc') (Input × Input') (Arrival ⊕ Arrival') where
  apply := P.apply
  violates := P.violates
  clashes := P.clashes
  clashes_symm := P.clashes_symm
  step
    | .inl p, input, reads, now => (P.step p input.1 reads now).map (Outcome.map .inl)
    | .inr q, input, reads, now => (Q.step q input.2 reads now).map (Outcome.map .inr)
  onError
    | .inl p => .inl (P.onError p)
    | .inr q => .inr (Q.onError q)
  arrive
    | .inl x, db => (P.arrive x db).map fun a => (a.1, a.2.map .inl)
    | .inr y, db => (Q.arrive y db).map fun a => (a.1, a.2.map .inr)

/-- The guard of the program whose session it is. -/
def besideGuard (guard : Db → Session Db Write Lock Proc → Input → Prop)
    (guard' : Db → Session Db Write Lock Proc' → Input' → Prop) (db : Db)
    (s : Session Db Write Lock (Proc ⊕ Proc')) (input : Input × Input') : Prop :=
  match s.proc with
  | .inl p => guard db (s.standing p) input.1
  | .inr q => guard' db (s.standing q) input.2

instance besideGuard.decidable (guard : Db → Session Db Write Lock Proc → Input → Prop)
    (guard' : Db → Session Db Write Lock Proc' → Input' → Prop)
    [∀ db s input, Decidable (guard db s input)] [∀ db s input, Decidable (guard' db s input)] :
    ∀ db s input, Decidable (besideGuard guard guard' db s input)
  | db, ⟨.inl p, pending, locks, views⟩, input =>
      inferInstanceAs (Decidable (guard db ⟨p, pending, locks, views⟩ input.1))
  | db, ⟨.inr q, pending, locks, views⟩, input =>
      inferInstanceAs (Decidable (guard' db ⟨q, pending, locks, views⟩ input.2))

/-- What is known is what the program of the session knows. -/
def besideKnows (knows : Db → List Write → Proc → Prop)
    (knows' : Db → List Write → Proc' → Prop) (db : Db) (ws : List Write) :
    Proc ⊕ Proc' → Prop
  | .inl p => knows db ws p
  | .inr q => knows' db ws q

/-- What accounts for the writes of two programs accounts for those of both. -/
theorem Provenance.beside {P : Program Db Write Lock Effect Proc Input Arrival}
    {Q : Program Db Write Lock Effect Proc' Input' Arrival'} {later : Db → Db → Prop}
    {accounted : Db → Prop} {accounts : Db → Write → Prop}
    {guard : Db → Session Db Write Lock Proc → Input → Prop}
    {guard' : Db → Session Db Write Lock Proc' → Input' → Prop}
    {knows : Db → List Write → Proc → Prop} {knows' : Db → List Write → Proc' → Prop}
    (hP : P.Provenance later accounted accounts guard knows)
    (hQ : Q.Provenance later accounted accounts guard' knows') (ha : Q.apply = P.apply) :
    (P.beside Q).Provenance later accounted accounts (besideGuard guard guard')
      (besideKnows knows knows') := by
  have hall : ∀ db ws, (P.beside Q).applyAll db ws = P.applyAll db ws := fun _ _ => rfl
  have hall' : ∀ db ws, (P.beside Q).applyAll db ws = Q.applyAll db ws := fun db ws => by
    rw [Program.applyAll, Program.applyAll, ha]
    rfl
  exact
    { grows :=
        { refl := hP.grows.refl
          trans := hP.grows.trans
          write := hP.grows.write
          arrive := fun {db x ws ps} vs harr => by
            cases x with
            | inl x =>
                obtain ⟨⟨ws', ps'⟩, harr', heq⟩ := Option.map_eq_some_iff.mp harr
                obtain ⟨rfl, -⟩ := Prod.mk.inj heq
                exact hP.grows.arrive vs harr'
            | inr y =>
                obtain ⟨⟨ws', ps'⟩, harr', heq⟩ := Option.map_eq_some_iff.mp harr
                obtain ⟨rfl, -⟩ := Prod.mk.inj heq
                simp only [hall']
                exact hQ.grows.arrive vs harr'
          commit := hP.grows.commit }
      lasting := hP.lasting
      collect := hP.collect
      knowing := fun {db db' ws p} hlater h => by
        cases p with
        | inl p => exact hP.knowing hlater h
        | inr q => exact hQ.knowing hlater h
      arrive := fun {db x ws ps} harr => by
        cases x with
        | inl x =>
            obtain ⟨⟨ws', ps'⟩, harr', heq⟩ := Option.map_eq_some_iff.mp harr
            obtain ⟨rfl, rfl⟩ := Prod.mk.inj heq
            refine ⟨(hP.arrive harr').1, fun p hp db' => ?_⟩
            obtain ⟨p', hp', rfl⟩ := List.mem_map.mp hp
            exact (hP.arrive harr').2 p' hp' db'
        | inr y =>
            obtain ⟨⟨ws', ps'⟩, harr', heq⟩ := Option.map_eq_some_iff.mp harr
            obtain ⟨rfl, rfl⟩ := Prod.mk.inj heq
            refine ⟨by simpa only [hall'] using (hQ.arrive harr').1, fun p hp db' => ?_⟩
            obtain ⟨p', hp', rfl⟩ := List.mem_map.mp hp
            exact (hQ.arrive harr').2 p' hp' db'
      error := fun db p => by
        cases p with
        | inl p => exact hP.error db p
        | inr q => exact hQ.error db q
      step := fun {db s input o} haccounted hreads hknows hg ho => by
        obtain ⟨p | q, pending, locks, views⟩ := s
        · obtain ⟨o', ho', rfl⟩ := Option.map_eq_some_iff.mp ho
          have hstep := hP.step (s := ⟨p, pending, locks, views⟩) haccounted hreads hknows hg ho'
          cases o' <;> exact hstep
        · obtain ⟨apply, violates, clashes, symm, step, onError, arrive⟩ := Q
          obtain rfl : apply = P.apply := ha
          obtain ⟨o', ho', rfl⟩ := Option.map_eq_some_iff.mp ho
          have hstep := hQ.step (s := ⟨q, pending, locks, views⟩) haccounted hreads hknows hg ho'
          cases o' <;> exact hstep }

end Program

end Transaction
