import Mathlib.Data.List.Basic
import RevenueRecovery.Lib.Transaction

/-!
# Tables whose rows are appended under locks

An append-only table is guarded when whoever appends a row holds the locks that guard it
until the commit. What a session reads of a lock's rows while it holds the lock is then
what is committed in the end, so that a property of each lock's rows which one appending
step keeps holds under every interleaving.

## Main definitions
* `LockedTable` : an append-only table, and the rows that each lock guards.
* `LockedTable.Appends` : writes append their rows and do nothing else to the table.
* `LockedTable.undoes` : an action that ends a transaction without a commit.
* `LockedTable.Log` : the obligations of a program that appends under locks.
* `LockedTable.Log.invariant` : the property of each lock's rows under every interleaving.
-/
namespace Transaction

variable {Db Write Lock Effect Proc Input Arrival Row : Type*}

/-- An append-only table: its rows, the row a write appends, and the locks that guard each
row. -/
structure LockedTable (Db Write Lock Row : Type*) where
  rows : Db → List Row
  row? : Write → Option Row
  guards : Lock → Row → Bool

namespace LockedTable

variable (T : LockedTable Db Write Lock Row)
  {P : Program Db Write Lock Effect Proc Input Arrival}

/-- The rows that a lock guards. -/
def guarded (key : Lock) (db : Db) : List Row := (T.rows db).filter (T.guards key)

/-- The rows some writes append that a lock guards. -/
def appended (key : Lock) (ws : List Write) : List Row :=
  (ws.filterMap T.row?).filter (T.guards key)

theorem appended_singleton {w : Write} {row : Row} (h : T.row? w = some row) (key : Lock) :
    T.appended key [w] = if T.guards key row then [row] else [] := by
  rw [appended, List.filterMap_cons_some h, List.filterMap_nil, List.filter_singleton,
    Bool.cond_eq_ite]

/-- Writes append their rows and do nothing else to the table. -/
def Appends (P : Program Db Write Lock Effect Proc Input Arrival) : Prop :=
  ∀ db w, T.rows (P.apply db w) = T.rows db ++ (T.row? w).toList

variable {T}

theorem Appends.rows_applyAll (h : T.Appends P) (db : Db) (ws : List Write) :
    T.rows (P.applyAll db ws) = T.rows db ++ ws.filterMap T.row? := by
  induction ws generalizing db with
  | nil => simp
  | cons w ws ih =>
      rw [Program.applyAll_cons, ih, h]
      cases hw : T.row? w <;> simp [hw]

theorem Appends.guarded_applyAll (h : T.Appends P) (key : Lock) (db : Db) (ws : List Write) :
    T.guarded key (P.applyAll db ws) = T.guarded key db ++ T.appended key ws := by
  rw [guarded, h.rows_applyAll, List.filter_append]
  rfl

/-- Rows are never changed: earlier ones are a prefix of the later ones. -/
theorem Appends.prefix_exec [DecidableEq Lock] (h : T.Appends P)
    {w w' : World Db Write Lock Effect Proc} {as : List (Action Input Arrival)}
    (hrun : Run.exec P.worldStep w as = some w') : T.rows w.db <+: T.rows w'.db := by
  have hstep : ∀ (u : World Db Write Lock Effect Proc) a u', T.rows w.db <+: T.rows u.db →
      P.worldStep u a = some u' → T.rows w.db <+: T.rows u'.db := by
    intro u a u' hu hua
    cases Program.stepped hua with
    | arrived =>
        rw [h.rows_applyAll]
        exact hu.trans (List.prefix_append _ _)
    | committed =>
        rw [Program.view, h.rows_applyAll]
        exact hu.trans (List.prefix_append _ _)
    | _ => exact hu
  exact Run.invariant_exec hstep List.prefix_rfl hrun

/-- The action ends the transaction of session `i` without a commit. -/
def undoes (P : Program Db Write Lock Effect Proc Input Arrival) (i : ℕ)
    (w : World Db Write Lock Effect Proc) : Action Input Arrival → Prop
  | .abort j => j = i
  | .advance j input => j = i ∧ (P.raises w (.advance j input) = true ∨
      ∃ s next, w.sessions[j]? = some s ∧ P.outcome w.db s input = some (.rollback next))
  | _ => False

/-- What a session sees of the table it sees until its transaction is undone. -/
theorem Appends.view_step [DecidableEq Lock] (h : T.Appends P)
    {w w' : World Db Write Lock Effect Proc} {a : Action Input Arrival} {i : ℕ}
    (hkept : ¬undoes P i w a) (hstep : P.worldStep w a = some w')
    {s : Session Db Write Lock Proc} (hs : w.sessions[i]? = some s) {row : Row}
    (hrow : row ∈ T.rows (P.view w.db s)) :
    ∃ s', w'.sessions[i]? = some s' ∧ row ∈ T.rows (P.view w'.db s') := by
  have hlt : i < w.sessions.length := (List.getElem?_eq_some_iff.mp hs).1
  -- a step of session `j` that leaves the store as it is
  have hset : ∀ {j : ℕ} {t t' : Session Db Write Lock Proc}, w.sessions[j]? = some t →
      (j = i → t = s → row ∈ T.rows (P.view w.db t')) →
      ∃ s', (w.sessions.set j t')[i]? = some s' ∧ row ∈ T.rows (P.view w.db s') := by
    intro j t t' ht ht'
    by_cases hij : j = i
    · subst hij
      exact ⟨t', by simp [hlt], ht' rfl (Option.some.inj (ht.symm.trans hs))⟩
    · exact ⟨s, by rw [List.getElem?_set_ne hij, hs], hrow⟩
  have hstore : ∀ ws, row ∈ T.rows (P.view (P.applyAll w.db ws) s) := by
    intro ws
    simp only [Program.view, h.rows_applyAll, List.mem_append] at hrow ⊢
    exact hrow.imp_left .inl
  cases Program.stepped hstep with
  | arrived => exact ⟨s, by rw [List.getElem?_append_left hlt, hs], hstore _⟩
  | looked ht => exact hset ht fun _ heq => by subst heq; exact hrow
  | aborted ht => exact hset ht fun hij _ => absurd hij hkept
  | locked ht => exact hset ht fun _ heq => by subst heq; exact hrow
  | @wrote j input t ws next ht ho =>
      refine hset ht fun _ heq => ?_
      subst heq
      have hview : P.view w.db (t.wrote ws next) = P.applyAll (P.view w.db t) ws := by
        rw [Program.view, Session.wrote, Program.applyAll_append]
        rfl
      rw [hview, h.rows_applyAll]
      exact List.mem_append_left _ hrow
  | @raised j input t ws next ht ho hbad =>
      exact hset ht fun hij _ => absurd ⟨hij, .inl (by simp [Program.raises, ht, ho, hbad])⟩ hkept
  | called ht => exact hset ht fun _ heq => by subst heq; exact hrow
  | @rolledBack j input t next ht ho =>
      exact hset ht fun hij _ => absurd ⟨hij, .inr ⟨t, next, ht, ho⟩⟩ hkept
  | @committed j input t next ht =>
      by_cases hij : j = i
      · subst hij
        obtain rfl : t = s := Option.some.inj (ht.symm.trans hs)
        exact ⟨.fresh next, by simp [hlt], hrow⟩
      · exact ⟨s, by simp [List.getElem?_set_ne hij, hs], hstore t.pending⟩

/-- Once a session has nothing left to commit, what it has seen is in the store. -/
theorem Appends.mem_exec [DecidableEq Lock] (h : T.Appends P)
    {w w' : World Db Write Lock Effect Proc} {as : List (Action Input Arrival)} {i : ℕ}
    (hrun : Run.exec P.worldStep w as = some w')
    (hkept : Run.Guarded P.worldStep (fun u a => ¬undoes P i u a) w as)
    {s s' : Session Db Write Lock Proc} (hs : w.sessions[i]? = some s)
    (hs' : w'.sessions[i]? = some s') (hpending : s'.pending = []) {row : Row}
    (hrow : row ∈ T.rows (P.view w.db s)) : row ∈ T.rows w'.db := by
  have hstep : ∀ (u : World Db Write Lock Effect Proc) a u',
      (∃ t, u.sessions[i]? = some t ∧ row ∈ T.rows (P.view u.db t)) → ¬undoes P i u a →
      P.worldStep u a = some u' →
      ∃ t, u'.sessions[i]? = some t ∧ row ∈ T.rows (P.view u'.db t) := by
    rintro u a u' ⟨t, ht, hrow⟩ hkept hua
    exact h.view_step hkept hua ht hrow
  obtain ⟨t, ht, hmem⟩ := Run.invariant_guarded hstep ⟨s, hs, hrow⟩ hkept hrun
  obtain rfl : t = s' := Option.some.inj (ht.symm.trans hs')
  rwa [Program.view, hpending] at hmem

/-- The session holds the locks its state needs, and those that guard the rows it has yet
to commit. -/
structure Holds (T : LockedTable Db Write Lock Row) (needs : Proc → Lock → Prop)
    (s : Session Db Write Lock Proc) : Prop where
  state : ∀ key, needs s.proc key → key ∈ s.locks
  pending : ∀ key, key ∉ s.locks → T.appended key s.pending = []

theorem Holds.fresh {needs : Proc → Lock → Prop} {p : Proc} (hp : ∀ key, ¬needs p key) :
    T.Holds needs (.fresh p : Session Db Write Lock Proc) :=
  ⟨fun key h => absurd h (hp key), fun _ _ => rfl⟩

/-- Of two sessions that hold no lock together, at most one has rows of a lock. -/
theorem Holds.apart {needs : Proc → Lock → Prop} {s t : Session Db Write Lock Proc}
    (hs : T.Holds needs s) (ht : T.Holds needs t) (h : Apart P s t) (key : Lock) :
    T.appended key s.pending = [] ∨ T.appended key t.pending = [] := by
  by_cases hkey : key ∈ s.locks
  · exact .inr (ht.pending key (h.locks key hkey))
  · exact .inl (hs.pending key hkey)

/-- After a commit another session sees the committing session's rows of a lock, or its
own. -/
theorem Holds.guarded_view {needs : Proc → Lock → Prop} {s t : Session Db Write Lock Proc}
    {db : Db} (hP : T.Appends P) (hs : T.Holds needs s) (ht : T.Holds needs t)
    (h : Apart P s t) (key : Lock) :
    T.guarded key (P.view (P.view db s) t) = T.guarded key (P.view db t) ∧
        key ∉ s.locks ∨
      T.guarded key (P.view (P.view db s) t) = T.guarded key (P.view db s) ∧
        key ∉ t.locks := by
  simp only [Program.view, hP.guarded_applyAll]
  by_cases hkey : key ∈ s.locks
  · have ht' := h.locks key hkey
    exact .inr ⟨by rw [ht.pending key ht', List.append_nil], ht'⟩
  · exact .inl ⟨by rw [hs.pending key hkey, List.append_nil], hkey⟩

/-! ## Logs -/

/-- What a session in state `p` that sees `view` may do in a step: it appends rows under the
locks it needs, keeps the property `Φ` of the rows of every lock, and knows what its next
state knows. -/
def Allowed (T : LockedTable Db Write Lock Row)
    (P : Program Db Write Lock Effect Proc Input Arrival) (needs : Proc → Lock → Prop)
    (knows : Db → Proc → Prop) (Φ : Lock → List Row → Prop) (view : Db) (p : Proc) :
    Outcome Write Lock Effect Proc → Prop
  | .lock key next => (∀ key', needs next key' → key' = key ∨ needs p key') ∧ knows view next
  | .write ws next => P.violatesAny view ws = false →
      (∀ key, ¬needs p key → T.appended key ws = []) ∧ (∀ key, needs next key → needs p key) ∧
      (∀ key, Φ key (T.guarded key view ++ T.appended key ws)) ∧ knows (P.applyAll view ws) next
  | .call _ next => (∀ key, needs next key → needs p key) ∧ knows view next
  | .commit next | .rollback next => (∀ key, ¬needs next key) ∧ ∀ db', knows db' next

/-- The obligations of a program that appends to a table under locks. A state needs locks
and knows something of the session's view, which `later` views let it know as long as the
rows of its locks stay the same. -/
structure Log (T : LockedTable Db Write Lock Row)
    (P : Program Db Write Lock Effect Proc Input Arrival) (later : Db → Db → Prop)
    (needs : Proc → Lock → Prop) (knows : Db → Proc → Prop) (Φ : Lock → List Row → Prop) :
    Prop where
  appends : T.Appends P
  arrive : ∀ {db x ws ps}, P.arrive x db = some (ws, ps) → ws.filterMap T.row? = [] ∧
    ∀ p ∈ ps, (∀ key, ¬needs p key) ∧ ∀ db', knows db' p
  error : ∀ p, (∀ key, ¬needs (P.onError p) key) ∧ ∀ db, knows db (P.onError p)
  later_refl : ∀ db, later db db
  later_trans : ∀ {a b c}, later a b → later b c → later a c
  known : ∀ {db db' p}, (∀ key, needs p key → T.guarded key db = T.guarded key db') →
    later db db' → knows db p → knows db' p
  later_arrive : ∀ {db x ws ps} (s : Session Db Write Lock Proc),
    P.arrive x db = some (ws, ps) → later (P.view db s) (P.view (P.applyAll db ws) s)
  later_commit : ∀ {s t : Session Db Write Lock Proc} (db : Db), Apart P s t →
    later (P.view db t) (P.view (P.view db s) t)
  step : ∀ {db s input o},
    (∀ key, needs s.proc key → ∀ k, T.guarded key (P.reads db s k) = T.guarded key (P.view db s)) →
    (∀ k, later (P.reads db s k) (P.view db s)) →
    (∀ k, knows (P.reads db s k) s.proc) → knows (P.view db s) s.proc →
    (∀ key, Φ key (T.guarded key (P.view db s))) → P.outcome db s input = some o →
    Allowed T P needs knows Φ (P.view db s) s.proc o

namespace Log

variable {later : Db → Db → Prop} {needs : Proc → Lock → Prop} {knows : Db → Proc → Prop}
  {Φ : Lock → List Row → Prop} {guard : Db → Session Db Write Lock Proc → Input → Prop}
  {db : Db} {s : Session Db Write Lock Proc}

/-- What holds of a session: its locks, the rows it sees, and what it knows of its present
view and of the recorded ones. -/
structure Known (T : LockedTable Db Write Lock Row)
    (P : Program Db Write Lock Effect Proc Input Arrival) (later : Db → Db → Prop)
    (needs : Proc → Lock → Prop) (knows : Db → Proc → Prop) (Φ : Lock → List Row → Prop)
    (db : Db) (s : Session Db Write Lock Proc) : Prop where
  holds : T.Holds needs s
  rows : ∀ key, Φ key (T.guarded key (P.view db s))
  views : ∀ v ∈ s.views, ∀ key ∈ s.locks, T.guarded key v = T.guarded key (P.view db s)
  laterViews : ∀ v ∈ s.views, later v (P.view db s)
  knowsViews : ∀ v ∈ s.views, knows v s.proc
  knows : knows (P.view db s) s.proc

theorem Known.fresh (hG : ∀ key, Φ key (T.guarded key db)) {p : Proc}
    (hp : (∀ key, ¬needs p key) ∧ ∀ db', knows db' p) :
    Known T P later needs knows Φ db (.fresh p) where
  holds := .fresh hp.1
  rows := hG
  views := by simp
  laterViews := by simp
  knowsViews := by simp
  knows := hp.2 _

theorem Known.reads (h : Known T P later needs knows Φ db s) (key : Lock) (hkey : needs s.proc key)
    (k : ℕ) : T.guarded key (P.reads db s k) = T.guarded key (P.view db s) := by
  rcases P.reads_cases db s k with hmem | heq
  · exact h.views _ hmem key (h.holds.state key hkey)
  · rw [heq]

theorem Known.laterReads (h : Known T P later needs knows Φ db s) (hrefl : ∀ db, later db db)
    (k : ℕ) : later (P.reads db s k) (P.view db s) := by
  rcases P.reads_cases db s k with hmem | heq
  · exact h.laterViews _ hmem
  · rw [heq]
    exact hrefl _

theorem Known.knowsReads (h : Known T P later needs knows Φ db s) (k : ℕ) :
    knows (P.reads db s k) s.proc := by
  rcases P.reads_cases db s k with hmem | heq
  · exact h.knowsViews _ hmem
  · rw [heq]
    exact h.knows

/-- A session that writes nothing moves on. -/
theorem Known.moved (h : Known T P later needs knows Φ db s) {s' : Session Db Write Lock Proc}
    (hpending : s'.pending = s.pending) (hviews : s'.views = []) (hlocks : s.locks ⊆ s'.locks)
    (hneeds : ∀ key, needs s'.proc key → key ∈ s'.locks)
    (hknows : knows (P.view db s) s'.proc) : Known T P later needs knows Φ db s' := by
  have hview : P.view db s' = P.view db s := by rw [Program.view, hpending]; rfl
  refine ⟨⟨hneeds, fun key hkey => ?_⟩, by rw [hview]; exact h.rows, by simp [hviews],
    by simp [hviews], by simp [hviews], by rw [hview]; exact hknows⟩
  rw [hpending]
  exact h.holds.pending key fun hmem => hkey (hlocks hmem)

/-- A step of a session does what the obligations say. -/
theorem Known.step (h : Known T P later needs knows Φ db s) (hT : T.Log P later needs knows Φ)
    {input : Input} {o : Outcome Write Lock Effect Proc} (ho : P.outcome db s input = some o) :
    Allowed T P needs knows Φ (P.view db s) s.proc o :=
  hT.step h.reads (h.laterReads hT.later_refl) h.knowsReads h.knows h.rows ho

/-- The property of each lock's rows holds of every committed store and of what every
session sees. -/
theorem invariant (hT : T.Log P later needs knows Φ) :
    P.Invariant guard (fun db => ∀ key, Φ key (T.guarded key db))
      (Known T P later needs knows Φ) where
  arrive {db x ws ps} hG harr _ := by
    obtain ⟨hnone, hps⟩ := hT.arrive harr
    have hrows : ∀ key (s : Session Db Write Lock Proc),
        T.guarded key (P.view (P.applyAll db ws) s) = T.guarded key (P.view db s) := by
      intro key s
      simp only [Program.view, hT.appends.guarded_applyAll]
      simp [appended, hnone]
    have hG' : ∀ key, Φ key (T.guarded key (P.applyAll db ws)) := by
      intro key
      rw [hT.appends.guarded_applyAll]
      simpa [appended, hnone] using hG key
    refine ⟨hG', fun s hs _ => ?_, fun p hp => .fresh hG' (hps p hp)⟩
    exact ⟨hs.holds, fun key => by rw [hrows]; exact hs.rows key,
      fun v hv key hkey => by rw [hrows]; exact hs.views v hv key hkey,
      fun v hv => hT.later_trans (hs.laterViews v hv) (hT.later_arrive s harr), hs.knowsViews,
      hT.known (fun key _ => (hrows key s).symm) (hT.later_arrive s harr) hs.knows⟩
  look {db s} _ h := by
    refine ⟨⟨h.holds.state, h.holds.pending⟩, h.rows, fun v hv key hkey => ?_, fun v hv => ?_,
      fun v hv => ?_, h.knows⟩
    · rcases List.mem_append.mp hv with hv | hv
      · exact h.views v hv key hkey
      · obtain rfl := List.mem_singleton.mp hv
        rfl
    · rcases List.mem_append.mp hv with hv | hv
      · exact h.laterViews v hv
      · obtain rfl := List.mem_singleton.mp hv
        exact hT.later_refl _
    · rcases List.mem_append.mp hv with hv | hv
      · exact h.knowsViews v hv
      · obtain rfl := List.mem_singleton.mp hv
        exact h.knows
  abort hG _ := .fresh hG (hT.error _)
  lock {db s input key next} _ h _ ho := by
    obtain ⟨hneeds, hknows⟩ := h.step hT ho
    refine h.moved rfl rfl (List.subset_cons_self _ _) (fun key' hkey' => ?_) hknows
    rcases hneeds key' hkey' with rfl | hold
    · exact List.mem_cons_self
    · exact List.mem_cons_of_mem _ (h.holds.state key' hold)
  write {db s input ws next} _ h _ ho hok := by
    obtain ⟨hown, hneeds, hrows, hknows⟩ := h.step hT ho hok
    have hview : P.view db (s.wrote ws next) = P.applyAll (P.view db s) ws := by
      rw [Program.view, Session.wrote, Program.applyAll_append]
      rfl
    refine ⟨⟨fun key hkey => h.holds.state key (hneeds key hkey), fun key hkey => ?_⟩,
      fun key => ?_, by simp [Session.wrote], by simp [Session.wrote], by simp [Session.wrote],
      by rw [hview]; exact hknows⟩
    · have hfree : ¬needs s.proc key := fun hn => hkey (h.holds.state key hn)
      rw [Session.wrote, appended, List.filterMap_append, List.filter_append]
      exact List.append_eq_nil_iff.mpr ⟨h.holds.pending key hkey, hown key hfree⟩
    · rw [hview, hT.appends.guarded_applyAll]
      exact hrows key
  call {db s input effect next} _ h _ ho := by
    obtain ⟨hneeds, hknows⟩ := h.step hT ho
    exact h.moved rfl rfl (List.Subset.refl _)
      (fun key hkey => h.holds.state key (hneeds key hkey)) hknows
  rollback {db s input next} hG h _ ho :=
    .fresh hG (h.step hT ho)
  commit {db s input next} _ h _ ho := by
    refine ⟨h.rows, .fresh h.rows (h.step hT ho),
      fun t ht hapart => ?_⟩
    have hrows : ∀ key,
        T.guarded key (P.view (P.view db s) t) = T.guarded key (P.view db t) ∧ key ∉ s.locks ∨
          T.guarded key (P.view (P.view db s) t) = T.guarded key (P.view db s) ∧ key ∉ t.locks :=
      h.holds.guarded_view hT.appends ht.holds hapart
    have hown : ∀ key ∈ t.locks,
        T.guarded key (P.view (P.view db s) t) = T.guarded key (P.view db t) :=
      fun key hkey => ((hrows key).resolve_right fun hfree => hfree.2 hkey).1
    refine ⟨ht.holds, fun key => ?_, fun v hv key hkey => ?_,
      fun v hv => hT.later_trans (ht.laterViews v hv) (hT.later_commit db hapart),
      ht.knowsViews, ?_⟩
    · rcases hrows key with ⟨heq, -⟩ | ⟨heq, -⟩ <;> rw [heq]
      · exact ht.rows key
      · exact h.rows key
    · rw [hown key hkey]
      exact ht.views v hv key hkey
    · exact hT.known (fun key hkey => (hown key (ht.holds.state key hkey)).symm)
        (hT.later_commit db hapart) ht.knows

end Log

end LockedTable

end Transaction
