import RevenueRecovery.Lib.Transaction

/-!
# What accounts for the writes of a store

A write is accounted for by the store that its session saw, and by every later one. When
every step of a program writes what its view accounts for, every committed store is
accounted for, and so is everything a session has yet to commit.

## Main definitions
* `Program.Grows` : a relation between earlier and later views.
* `Program.Provenance` : the obligations of a program.
* `Program.Provenance.invariant` : what they yield under every interleaving.
-/
namespace Transaction

variable {Db Write Lock Effect Proc Input Arrival : Type*}

namespace Program

/-- A relation between what a session sees at an earlier and at a later moment: writes,
arrivals, and the commits of writes that do not compete lead on. -/
structure Grows (P : Program Db Write Lock Effect Proc Input Arrival) (later : Db → Db → Prop) :
    Prop where
  refl : ∀ db, later db db
  trans : ∀ {a b c}, later a b → later b c → later a c
  write : ∀ db ws, later db (P.applyAll db ws)
  arrive : ∀ {db x ws ps} (vs : List Write), P.arrive x db = some (ws, ps) →
    later (P.applyAll db vs) (P.applyAll (P.applyAll db ws) vs)
  commit : ∀ {ws vs : List Write} (db : Db), (∀ a ∈ ws, ∀ b ∈ vs, P.clashes a b = false) →
    later (P.applyAll db vs) (P.applyAll (P.applyAll db ws) vs)

/-- Every step of a program writes what its view accounts for, given what the session knows
of its view and of its own writes. -/
structure Provenance (P : Program Db Write Lock Effect Proc Input Arrival)
    (later : Db → Db → Prop) (accounted : Db → Prop) (accounts : Db → Write → Prop)
    (guard : Db → Session Db Write Lock Proc → Input → Prop)
    (knows : Db → List Write → Proc → Prop) : Prop where
  grows : P.Grows later
  lasting : ∀ {db db' w}, later db db' → accounts db w → accounts db' w
  collect : ∀ {db ws}, accounted db → (∀ w ∈ ws, accounts (P.applyAll db ws) w) →
    accounted (P.applyAll db ws)
  knowing : ∀ {db db' ws p}, later db db' → knows db ws p → knows db' ws p
  arrive : ∀ {db x ws ps}, P.arrive x db = some (ws, ps) →
    (∀ w ∈ ws, accounts (P.applyAll db ws) w) ∧ ∀ p ∈ ps, ∀ db', knows db' [] p
  error : ∀ db p, knows db [] (P.onError p)
  step : ∀ {db s input o}, accounted (P.view db s) →
    (∀ k, later (P.reads db s k) (P.view db s)) → knows (P.view db s) s.pending s.proc →
    guard db s input → P.outcome db s input = some o →
    match o with
    | .write ws next => (∀ w ∈ ws, accounts (P.view db (s.wrote ws next)) w) ∧
        knows (P.view db (s.wrote ws next)) (s.pending ++ ws) next
    | .lock _ next | .call _ next => knows (P.view db s) s.pending next
    | .commit next | .rollback next => ∀ db', knows db' [] next

namespace Provenance

variable {P : Program Db Write Lock Effect Proc Input Arrival} {later : Db → Db → Prop}
  {accounted : Db → Prop} {accounts : Db → Write → Prop}
  {guard : Db → Session Db Write Lock Proc → Input → Prop}
  {knows : Db → List Write → Proc → Prop} {db : Db} {s : Session Db Write Lock Proc}

/-- What a session has read has led to its view, and its view accounts for its writes. -/
structure Kept (P : Program Db Write Lock Effect Proc Input Arrival) (later : Db → Db → Prop)
    (accounts : Db → Write → Prop) (knows : Db → List Write → Proc → Prop) (db : Db)
    (s : Session Db Write Lock Proc) : Prop where
  views : ∀ v ∈ s.views, later v (P.view db s)
  pending : ∀ w ∈ s.pending, accounts (P.view db s) w
  knows : knows (P.view db s) s.pending s.proc

theorem Kept.fresh {p : Proc} (hp : ∀ db', knows db' [] p) :
    Kept P later accounts knows db (.fresh p) := ⟨by simp, by simp, hp _⟩

/-- A later view keeps everything. -/
theorem Kept.mono {db' : Db} (hP : P.Provenance later accounted accounts guard knows)
    (h : Kept P later accounts knows db s) (hview : later (P.view db s) (P.view db' s)) :
    Kept P later accounts knows db' s :=
  ⟨fun v hv => hP.grows.trans (h.views v hv) hview, fun w hw => hP.lasting hview (h.pending w hw),
    hP.knowing hview h.knows⟩

theorem Kept.reads (hP : P.Provenance later accounted accounts guard knows)
    (h : Kept P later accounts knows db s) (k : ℕ) : later (P.reads db s k) (P.view db s) := by
  rcases P.reads_cases db s k with hmem | heq
  · exact h.views _ hmem
  · rw [heq]
    exact hP.grows.refl _

/-- The view of a session is accounted for. -/
theorem Kept.view (hP : P.Provenance later accounted accounts guard knows)
    (h : Kept P later accounts knows db s) (hdb : accounted db) : accounted (P.view db s) :=
  hP.collect hdb h.pending

/-- A session that only moves on. -/
theorem Kept.moved (h : Kept P later accounts knows db s) {s' : Session Db Write Lock Proc}
    (hpending : s'.pending = s.pending) (hviews : s'.views = [])
    (hknows : knows (P.view db s) s.pending s'.proc) : Kept P later accounts knows db s' := by
  have hview : P.view db s' = P.view db s := by rw [Program.view, hpending]; rfl
  refine ⟨by simp [hviews], ?_, ?_⟩
  · rw [hpending, hview]
    exact h.pending
  · rw [hpending, hview]
    exact hknows

/-- Committed stores are accounted for, and so is what sessions have yet to commit. -/
theorem invariant (hP : P.Provenance later accounted accounts guard knows) :
    P.Invariant guard accounted (Kept P later accounts knows) where
  arrive {db x ws ps} hG harr _ := by
    obtain ⟨hws, hps⟩ := hP.arrive harr
    exact ⟨hP.collect hG hws, fun s hs _ => hs.mono hP (hP.grows.arrive s.pending harr),
      fun p hp => .fresh (hps p hp)⟩
  look {db s} _ h := by
    refine ⟨fun v hv => ?_, h.pending, h.knows⟩
    rcases List.mem_append.mp hv with hv | hv
    · exact h.views v hv
    · obtain rfl := List.mem_singleton.mp hv
      exact hP.grows.refl _
  abort _ _ := .fresh fun _ => hP.error _ _
  lock hG h hg ho := h.moved rfl rfl (hP.step (h.view hP hG) (h.reads hP) h.knows hg ho)
  write {db s input ws next} hG h hg ho _ := by
    obtain ⟨hws, hknows⟩ := hP.step (h.view hP hG) (h.reads hP) h.knows hg ho
    refine ⟨by simp [Session.wrote], fun w hw => ?_, hknows⟩
    rcases List.mem_append.mp hw with hw | hw
    · rw [P.view_wrote]
      exact hP.lasting (hP.grows.write _ _) (h.pending w hw)
    · exact hws w hw
  call hG h hg ho := h.moved rfl rfl (hP.step (h.view hP hG) (h.reads hP) h.knows hg ho)
  rollback hG h hg ho := .fresh (hP.step (h.view hP hG) (h.reads hP) h.knows hg ho)
  commit {db s input next} hG h hg ho :=
    ⟨h.view hP hG, .fresh (hP.step (h.view hP hG) (h.reads hP) h.knows hg ho),
      fun _ ht hapart => ht.mono hP (hP.grows.commit db hapart.pending)⟩

/-- Along a run every store leads to the next. -/
theorem exec [DecidableEq Lock] (hP : P.Provenance later accounted accounts guard knows)
    {w w' : World Db Write Lock Effect Proc} {as : List (Action Input Arrival)}
    (h : Run.exec P.worldStep w as = some w') : later w.db w'.db := by
  have hstep : ∀ (u : World Db Write Lock Effect Proc) a u', later w.db u.db →
      P.worldStep u a = some u' → later w.db u'.db := by
    intro u a u' hu hstep
    cases Program.stepped hstep with
    | arrived => exact hP.grows.trans hu (hP.grows.write _ _)
    | committed => exact hP.grows.trans hu (hP.grows.write _ _)
    | _ => exact hu
  exact Run.invariant_exec hstep (hP.grows.refl _) h

end Provenance

end Program

end Transaction
