import RevenueRecovery.Lib.Transaction

/-!
# Following one session

What one session of a world knows stays true while the others run: its own steps carry it
on, and whatever they commit must keep it. The invariants of all sessions are at hand in
every world on the way.

## Main definitions
* `Invariant.and`, `Constraints.invariant`, `Invariant.recorded` : invariants put together.
* `Stable` : a relation between what sessions have read and what they see now.
* `Carried`, `Carried.exec` : a property of one session along a run.
* `Closed`, `Spends` : stages that sessions do not leave; a call leads to a spent session.
* `Spends.exec`, `Carried.calls` : a session has made no call yet, and makes none any more.
-/
namespace Transaction

variable {Db Write Lock Effect Proc Input Arrival : Type*}

namespace Program

variable {P : Program Db Write Lock Effect Proc Input Arrival} {G : Db → Prop}
  {L : Db → Session Db Write Lock Proc → Prop}

/-! ## Invariants together -/

section Together
variable {guard : Db → Session Db Write Lock Proc → Input → Prop}

/-- Two invariants hold together. -/
theorem Invariant.and {G' : Db → Prop} {L' : Db → Session Db Write Lock Proc → Prop}
    (hI : P.Invariant guard G L) (hI' : P.Invariant guard G' L') :
    P.Invariant guard (fun db => G db ∧ G' db) fun db s => L db s ∧ L' db s where
  arrive hG harr hok := by
    obtain ⟨hstore, hold, hnew⟩ := hI.arrive hG.1 harr hok
    obtain ⟨hstore', hold', hnew'⟩ := hI'.arrive hG.2 harr hok
    exact ⟨⟨hstore, hstore'⟩, fun s hs hfree => ⟨hold s hs.1 hfree, hold' s hs.2 hfree⟩,
      fun p hp => ⟨hnew p hp, hnew' p hp⟩⟩
  look hG h := ⟨hI.look hG.1 h.1, hI'.look hG.2 h.2⟩
  abort hG h := ⟨hI.abort hG.1 h.1, hI'.abort hG.2 h.2⟩
  lock hG h hg ho := ⟨hI.lock hG.1 h.1 hg ho, hI'.lock hG.2 h.2 hg ho⟩
  write hG h hg ho hok := ⟨hI.write hG.1 h.1 hg ho hok, hI'.write hG.2 h.2 hg ho hok⟩
  call hG h hg ho := ⟨hI.call hG.1 h.1 hg ho, hI'.call hG.2 h.2 hg ho⟩
  rollback hG h hg ho := ⟨hI.rollback hG.1 h.1 hg ho, hI'.rollback hG.2 h.2 hg ho⟩
  commit hG h hg ho := by
    obtain ⟨hstore, hself, hothers⟩ := hI.commit hG.1 h.1 hg ho
    obtain ⟨hstore', hself', hothers'⟩ := hI'.commit hG.2 h.2 hg ho
    exact ⟨⟨hstore, hstore'⟩, ⟨hself, hself'⟩, fun t ht hapart =>
      ⟨hothers t ht.1 hapart, hothers' t ht.2 hapart⟩⟩

/-- Unique constraints are an invariant: the store meets them, and so does what every
session sees. -/
theorem Constraints.invariant {conflicts : Write → Write → Bool} {U : Db → Prop}
    (hC : Constraints P conflicts U) :
    P.Invariant guard U fun db s => P.violatesAny db s.pending = false where
  arrive {db x ws ps} hG _ hok := by
    refine ⟨hC.keep_applyAll hG hok, fun s hs hfree => ?_, fun _ _ => rfl⟩
    refine hC.violatesAny_applyAll hs fun a ha b hb => ?_
    rw [P.clashes_symm]
    exact hfree b hb a ha
  look _ h := h
  abort _ _ := rfl
  lock _ h _ _ := h
  write _ h _ _ hok := by
    rw [Session.wrote, Constraints.violatesAny_append, h]
    exact hok
  call _ h _ _ := h
  rollback _ _ _ _ := rfl
  commit hG h _ _ := ⟨hC.keep_applyAll hG h, rfl, fun _ ht hapart =>
    hC.violatesAny_applyAll ht hapart.pending⟩

/-- Whatever holds of every view held when a session recorded one, and the views of a step
are related in the order in which they were recorded. -/
theorem Invariant.recorded {A : Db → Prop} {R : Db → Db → Prop} (hI : P.Invariant guard G L)
    (hA : ∀ {db s}, G db → L db s → A (P.view db s))
    (hR : ∀ {db s}, L db s → ∀ v ∈ s.views, R v (P.view db s)) :
    P.Invariant guard G fun db s => L db s ∧ (∀ v ∈ s.views, A v) ∧ s.views.Pairwise R where
  arrive hG harr hok := by
    obtain ⟨hstore, hold, hnew⟩ := hI.arrive hG harr hok
    exact ⟨hstore, fun s hs hfree => ⟨hold s hs.1 hfree, hs.2⟩,
      fun p hp => ⟨hnew p hp, by simp, .nil⟩⟩
  look {db s} hG h := by
    refine ⟨hI.look hG h.1, fun v hv => ?_, ?_⟩
    · rcases List.mem_append.mp hv with hv | hv
      · exact h.2.1 v hv
      · obtain rfl := List.mem_singleton.mp hv
        exact hA hG h.1
    · refine List.pairwise_append.mpr ⟨h.2.2, List.pairwise_singleton _ _, fun v hv u hu => ?_⟩
      obtain rfl := List.mem_singleton.mp hu
      exact hR h.1 v hv
  abort hG h := ⟨hI.abort hG h.1, by simp, .nil⟩
  lock hG h hg ho := ⟨hI.lock hG h.1 hg ho, by simp [Session.locked], .nil⟩
  write hG h hg ho hok := ⟨hI.write hG h.1 hg ho hok, by simp [Session.wrote], .nil⟩
  call hG h hg ho := ⟨hI.call hG h.1 hg ho, by simp [Session.moved], .nil⟩
  rollback hG h hg ho := ⟨hI.rollback hG h.1 hg ho, by simp, .nil⟩
  commit hG h hg ho := by
    obtain ⟨hstore, hself, hothers⟩ := hI.commit hG h.1 hg ho
    exact ⟨hstore, ⟨hself, by simp, .nil⟩, fun t ht hapart => ⟨hothers t ht.1 hapart, ht.2⟩⟩

/-- What a session has recorded since its last step is its own view of some store. -/
theorem ownViews (P : Program Db Write Lock Effect Proc Input Arrival)
    (guard : Db → Session Db Write Lock Proc → Input → Prop) :
    P.Invariant guard (fun _ => True) fun _ s => ∀ v ∈ s.views, ∃ db, v = P.view db s where
  arrive _ _ _ := ⟨trivial, fun _ h _ => h, fun _ _ => by simp⟩
  look {db s} _ h := by
    intro v hv
    rcases List.mem_append.mp hv with hv | hv
    · exact h v hv
    · exact ⟨db, List.mem_singleton.mp hv⟩
  abort _ _ := by simp
  lock _ _ _ _ := by simp [Session.locked]
  write _ _ _ _ _ := by simp [Session.wrote]
  call _ _ _ _ := by simp [Session.moved]
  rollback _ _ _ _ := by simp
  commit _ _ _ _ := ⟨trivial, by simp, fun _ h _ => h⟩

/-- Later statements of a step read later views. -/
theorem reads_ordered {R : Db → Db → Prop} {db : Db} {s : Session Db Write Lock Proc}
    (hrefl : ∀ db, R db db) (hR : ∀ v ∈ s.views, R v (P.view db s))
    (hpair : s.views.Pairwise R) {j k : ℕ} (hjk : j ≤ k) :
    R (P.reads db s j) (P.reads db s k) := by
  rcases Nat.lt_or_ge k s.views.length with hk | hk
  · have hj : j < s.views.length := Nat.lt_of_le_of_lt hjk hk
    have hreads : ∀ {n : ℕ} (hn : n < s.views.length), P.reads db s n = s.views[n] :=
      fun hn => List.getD_eq_getElem _ _ hn
    rw [hreads hj, hreads hk]
    rcases Nat.eq_or_lt_of_le hjk with rfl | hlt
    · exact hrefl _
    · exact List.pairwise_iff_getElem.mp hpair j k hj hk hlt
  · rw [show P.reads db s k = P.view db s from List.getD_eq_default _ _ hk]
    rcases P.reads_cases db s j with hmem | heq
    · exact hR _ hmem
    · rw [heq]
      exact hrefl _

/-- Whatever holds of recorded views and of the present one, every statement reads. -/
theorem reads_of_views {A : Db → Prop} {db : Db} {s : Session Db Write Lock Proc}
    (hviews : ∀ v ∈ s.views, A v) (hview : A (P.view db s)) (k : ℕ) : A (P.reads db s k) := by
  rcases P.reads_cases db s k with hmem | heq
  · exact hviews _ hmem
  · rw [heq]
    exact hview

end Together

/-! ## Stable reads -/

/-- A relation between an earlier and a later view of a session, which depends on the locks
it holds, and which the commits of others keep. -/
structure Stable (P : Program Db Write Lock Effect Proc Input Arrival) (G : Db → Prop)
    (L : Db → Session Db Write Lock Proc → Prop) (R : List Lock → Db → Db → Prop) : Prop where
  refl : ∀ locks db, R locks db db
  trans : ∀ {locks a b c}, R locks a b → R locks b c → R locks a c
  arrive : ∀ {db x ws ps s}, G db → L db s → P.arrive x db = some (ws, ps) →
    R s.locks (P.view db s) (P.view (P.applyAll db ws) s)
  commit : ∀ {db s t input next}, G db → L db s → L db t → Apart P s t →
    P.outcome db s input = some (.commit next) →
    R t.locks (P.view db t) (P.view (P.view db s) t)

/-- What a session has read is related to what it sees now. -/
theorem Stable.invariant {R : List Lock → Db → Db → Prop}
    {guard : Db → Session Db Write Lock Proc → Input → Prop} (hR : P.Stable G L R)
    (hI : P.Invariant guard G L) : P.Invariant guard G fun db s =>
      L db s ∧ ∀ v ∈ s.views, R s.locks v (P.view db s) where
  arrive {db x ws ps} hG harr hok := by
    obtain ⟨hstore, hold, hnew⟩ := hI.arrive hG harr hok
    exact ⟨hstore, fun s hs hfree => ⟨hold s hs.1 hfree, fun v hv =>
      hR.trans (hs.2 v hv) (hR.arrive hG hs.1 harr)⟩, fun p hp => ⟨hnew p hp, by simp⟩⟩
  look {db s} hG h := by
    refine ⟨hI.look hG h.1, fun v hv => ?_⟩
    rcases List.mem_append.mp hv with hv | hv
    · exact h.2 v hv
    · obtain rfl := List.mem_singleton.mp hv
      exact hR.refl _ _
  abort hG h := ⟨hI.abort hG h.1, by simp⟩
  lock hG h hg ho := ⟨hI.lock hG h.1 hg ho, by simp [Session.locked]⟩
  write hG h hg ho hok := ⟨hI.write hG h.1 hg ho hok, by simp [Session.wrote]⟩
  call hG h hg ho := ⟨hI.call hG h.1 hg ho, by simp [Session.moved]⟩
  rollback hG h hg ho := ⟨hI.rollback hG h.1 hg ho, by simp⟩
  commit hG h hg ho := by
    obtain ⟨hstore, hself, hothers⟩ := hI.commit hG h.1 hg ho
    exact ⟨hstore, ⟨hself, by simp⟩, fun t ht hapart => ⟨hothers t ht.1 hapart, fun v hv =>
      hR.trans (ht.2 v hv) (hR.commit hG h.1 ht.1 hapart ho)⟩⟩

/-- So is what a statement of its step reads. -/
theorem Stable.reads {R : List Lock → Db → Db → Prop} (hR : P.Stable G L R) {db : Db}
    {s : Session Db Write Lock Proc} (h : ∀ v ∈ s.views, R s.locks v (P.view db s)) (k : ℕ) :
    R s.locks (P.reads db s k) (P.view db s) := by
  rcases P.reads_cases db s k with hmem | heq
  · exact h _ hmem
  · rw [heq]
    exact hR.refl _ _

/-! ## A property of one session -/

/-- Obligations for a property `Q` of one session: its own steps carry it on, and arrivals
and the commits of others keep it. -/
structure Carried (P : Program Db Write Lock Effect Proc Input Arrival) (G : Db → Prop)
    (L Q : Db → Session Db Write Lock Proc → Prop) : Prop where
  arrive : ∀ {db x ws ps s}, G db → L db s → Q db s → P.arrive x db = some (ws, ps) →
    Q (P.applyAll db ws) s
  look : ∀ {db s}, G db → L db s → Q db s → Q db (P.looked db s)
  abort : ∀ {db s}, G db → L db s → Q db s → Q db (.fresh (P.onError s.proc))
  lock : ∀ {db s input key next}, G db → L db s → Q db s →
    P.outcome db s input = some (.lock key next) → Q db (s.locked key next)
  write : ∀ {db s input ws next}, G db → L db s → Q db s →
    P.outcome db s input = some (.write ws next) →
    P.violatesAny (P.view db s) ws = false → Q db (s.wrote ws next)
  call : ∀ {db s input effect next}, G db → L db s → Q db s →
    P.outcome db s input = some (.call effect next) → Q db (s.moved next)
  rollback : ∀ {db s input next}, G db → L db s → Q db s →
    P.outcome db s input = some (.rollback next) → Q db (.fresh next)
  commit : ∀ {db s input next}, G db → L db s → Q db s →
    P.outcome db s input = some (.commit next) → Q (P.view db s) (.fresh next)
  other : ∀ {db s t input next}, G db → L db s → Q db s → L db t → Apart P t s →
    P.outcome db t input = some (.commit next) → Q (P.view db t) s

namespace Carried

variable [DecidableEq Lock] {Q : Db → Session Db Write Lock Proc → Prop}
  {w w' : World Db Write Lock Effect Proc}

/-- One step of the world carries the property on. -/
theorem step (hQ : P.Carried G L Q) (hw : P.Good G L w) {a : Action Input Arrival}
    (hstep : P.worldStep w a = some w') {i : ℕ} {s : Session Db Write Lock Proc}
    (hs : w.sessions[i]? = some s) (hq : Q w.db s) :
    ∃ s', w'.sessions[i]? = some s' ∧ Q w'.db s' := by
  have hG := hw.store
  have hL := hw.session s (List.mem_of_getElem? hs)
  have hlt : i < w.sessions.length := (List.getElem?_eq_some_iff.mp hs).1
  -- a step of session `j` that leaves the store as it is
  have hset : ∀ {j : ℕ} {t t' : Session Db Write Lock Proc}, w.sessions[j]? = some t →
      (t = s → Q w.db t') → ∃ s', (w.sessions.set j t')[i]? = some s' ∧ Q w.db s' := by
    intro j t t' ht ht'
    by_cases hij : j = i
    · subst hij
      obtain rfl : t = s := Option.some.inj (ht.symm.trans hs)
      exact ⟨t', by simp [hlt], ht' rfl⟩
    · exact ⟨s, by rw [List.getElem?_set_ne hij, hs], hq⟩
  cases Program.stepped hstep with
  | arrived harr =>
      exact ⟨s, by rw [List.getElem?_append_left hlt, hs], hQ.arrive hG hL hq harr⟩
  | looked ht => exact hset ht fun heq => heq ▸ hQ.look hG hL hq
  | aborted ht => exact hset ht fun heq => heq ▸ hQ.abort hG hL hq
  | locked ht ho => exact hset ht fun heq => by subst heq; exact hQ.lock hG hL hq ho
  | wrote ht ho _ hok => exact hset ht fun heq => by subst heq; exact hQ.write hG hL hq ho hok
  | raised ht => exact hset ht fun heq => heq ▸ hQ.abort hG hL hq
  | called ht ho => exact hset ht fun heq => by subst heq; exact hQ.call hG hL hq ho
  | rolledBack ht ho => exact hset ht fun heq => by subst heq; exact hQ.rollback hG hL hq ho
  | @committed j input t next ht ho =>
      by_cases hij : j = i
      · subst hij
        obtain rfl : t = s := Option.some.inj (ht.symm.trans hs)
        exact ⟨.fresh next, by simp [hlt], hQ.commit hG hL hq ho⟩
      · refine ⟨s, by simp [List.getElem?_set_ne hij, hs], ?_⟩
        exact hQ.other hG hL hq (hw.session t (List.mem_of_getElem? ht))
          (hw.separated j i t s hij ht hs) ho

/-- A run carries the property on when the invariants hold in every world of it. -/
theorem exec (hQ : P.Carried G L Q) {I : World Db Write Lock Effect Proc → Prop}
    (hI : ∀ w a w', I w → P.worldStep w a = some w' → I w') (hgood : ∀ w, I w → P.Good G L w)
    {as : List (Action Input Arrival)} (hw : I w) {i : ℕ} {s : Session Db Write Lock Proc}
    (hs : w.sessions[i]? = some s) (hq : Q w.db s) (h : Run.exec P.worldStep w as = some w') :
    ∃ s', w'.sessions[i]? = some s' ∧ Q w'.db s' := by
  have hstep : ∀ u a u', (I u ∧ ∃ s', u.sessions[i]? = some s' ∧ Q u.db s') →
      P.worldStep u a = some u' → I u' ∧ ∃ s', u'.sessions[i]? = some s' ∧ Q u'.db s' := by
    rintro u a u' ⟨hu, s', hs', hq'⟩ hua
    exact ⟨hI u a u' hu hua, hQ.step (hgood u hu) hua hs' hq'⟩
  exact (Run.invariant_exec hstep ⟨hw, s, hs, hq⟩ h).2

end Carried

/-! ## Calls -/

/-- A session that has reached a stage stays in it. -/
structure Closed (P : Program Db Write Lock Effect Proc Input Arrival) (stage : Proc → Prop) :
    Prop where
  error : ∀ p, stage p → stage (P.onError p)
  step : ∀ {db s input o}, P.outcome db s input = some o → stage s.proc → stage o.next

theorem Closed.carried {stage : Proc → Prop} (hP : P.Closed stage) :
    P.Carried G L fun _ s => stage s.proc where
  arrive _ _ h _ := h
  look _ _ h := h
  abort _ _ h := hP.error _ h
  lock _ _ h ho := hP.step ho h
  write _ _ h ho _ := hP.step ho h
  call _ _ h ho := hP.step ho h
  rollback _ _ h ho := hP.step ho h
  commit _ _ h ho := hP.step ho h
  other _ _ h _ _ _ := h

/-- Sessions that have made a call are spent, and stay spent. -/
structure Spends (P : Program Db Write Lock Effect Proc Input Arrival) (spent : Proc → Prop) :
    Prop extends Closed P spent where
  call : ∀ {db s input effect next}, P.outcome db s input = some (.call effect next) →
    spent next

/-- Every call was made by a session that is spent now. -/
def Spent (spent : Proc → Prop) (w : World Db Write Lock Effect Proc) : Prop :=
  ∀ i effect, (i, effect) ∈ w.calls → ∃ s, w.sessions[i]? = some s ∧ spent s.proc

namespace Spends

variable [DecidableEq Lock] {spent : Proc → Prop} {w w' : World Db Write Lock Effect Proc}

theorem worldStep (hP : P.Spends spent) {a : Action Input Arrival} (h : Spent spent w)
    (hstep : P.worldStep w a = some w') : Spent spent w' := by
  have hold : ∀ i effect, (i, effect) ∈ w.calls →
      ∃ s, w'.sessions[i]? = some s ∧ spent s.proc := by
    intro i effect hmem
    obtain ⟨s, hs, hspent⟩ := h i effect hmem
    obtain ⟨s', hs', hcases⟩ := session_step hstep hs
    refine ⟨s', hs', ?_⟩
    rcases hcases with heq | heq | ⟨input, o, ho, heq⟩
    · exact heq ▸ hspent
    · exact heq ▸ hP.error _ hspent
    · exact heq ▸ hP.step ho hspent
  cases Program.stepped hstep with
  | @called i input s effect next hs ho =>
      intro j effect' hmem
      rcases List.mem_append.mp hmem with hmem | hmem
      · exact hold j effect' hmem
      · obtain ⟨rfl, rfl⟩ := Prod.mk.inj (List.mem_singleton.mp hmem)
        have hlt : j < w.sessions.length := (List.getElem?_eq_some_iff.mp hs).1
        exact ⟨s.moved next, by simp [hlt], hP.call ho⟩
  | _ => exact hold

/-- A session that is not spent has made no call. -/
theorem exec (hP : P.Spends spent) {db : Db} {as : List (Action Input Arrival)}
    (h : Run.exec P.worldStep ⟨db, [], []⟩ as = some w') : Spent spent w' := by
  have hempty : Spent spent (⟨db, [], []⟩ : World Db Write Lock Effect Proc) := by simp [Spent]
  exact Run.invariant_exec (fun _ _ _ hw hstep => hP.worldStep hw hstep) hempty h

end Spends

/-- A session that keeps a property under which it calls nothing makes no further call. -/
theorem Carried.calls [DecidableEq Lock] {Q : Db → Session Db Write Lock Proc → Prop}
    (hQ : P.Carried G L Q) {I : World Db Write Lock Effect Proc → Prop}
    (hI : ∀ w a w', I w → P.worldStep w a = some w' → I w') (hgood : ∀ w, I w → P.Good G L w)
    (hnot : ∀ {db s input effect next}, Q db s →
      P.outcome db s input ≠ some (.call effect next))
    {w w' : World Db Write Lock Effect Proc} {as : List (Action Input Arrival)} (hw : I w)
    {i : ℕ} {s : Session Db Write Lock Proc} (hs : w.sessions[i]? = some s) (hq : Q w.db s)
    (h : Run.exec P.worldStep w as = some w') (effect : Effect) (hcall : (i, effect) ∈ w'.calls) :
    (i, effect) ∈ w.calls := by
  induction as generalizing w s with
  | nil => cases h; exact hcall
  | cons a as ih =>
      obtain ⟨u, ha, hrest⟩ := Option.bind_eq_some_iff.mp h
      obtain ⟨s', hs', hq'⟩ := hQ.step (hgood w hw) ha hs hq
      have hu := ih (hI w a u hw ha) hs' hq' hrest
      cases Program.stepped ha with
      | @called j input t effect' next ht ho =>
          rcases List.mem_append.mp hu with hmem | hmem
          · exact hmem
          · obtain ⟨rfl, rfl⟩ := Prod.mk.inj (List.mem_singleton.mp hmem)
            obtain rfl : t = s := Option.some.inj (ht.symm.trans hs)
            exact absurd ho (hnot hq)
      | _ => exact hu

end Program

end Transaction
