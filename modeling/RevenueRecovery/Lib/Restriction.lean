import RevenueRecovery.Lib.Transaction

/-!
# Runs with the sessions of one kind only

Arrivals are of two kinds, and so are the sessions they start and the rows these write.
When the sessions of one kind read nothing but a part of the store, and those of the other
kind write nothing in this part, then the arrivals and the actions of the other kind may be
left out of any run: what remains is a run, and it leaves the same part of the store.

## Main definitions
* `select`, `rank` : the kept elements of a list, and where they go.
* `restrict` : a run without the arrivals and sessions of the other kind.
* `Program.Restricts` : a world beside the one without the others' sessions.
* `Program.Restriction` : the obligations of a program.
* `Program.Restriction.exec` : what they yield for runs.
-/
namespace Transaction

variable {Db Write Lock Effect Proc Input Arrival : Type*}

/-! ## Kept positions -/

section Select
variable {α : Type*}

/-- The elements at the positions that are kept. -/
def select : List Bool → List α → List α
  | true :: kept, a :: as => a :: select kept as
  | false :: kept, _ :: as => select kept as
  | _, _ => []

/-- The number of kept positions before `i`. -/
def rank : List Bool → ℕ → ℕ
  | b :: kept, i + 1 => b.toNat + rank kept i
  | _, _ => 0

theorem getElem?_select {kept : List Bool} {as : List α} {i : ℕ} {a : α}
    (hkept : kept[i]? = some true) (ha : as[i]? = some a) :
    (select kept as)[rank kept i]? = some a := by
  induction kept generalizing as i with
  | nil => simp at hkept
  | cons b kept ih =>
      cases as with
      | nil => simp at ha
      | cons x as =>
          cases i with
          | zero =>
              obtain rfl : b = true := by simpa using hkept
              simpa [select, rank] using ha
          | succ i =>
              have hrest := ih (by simpa using hkept) (by simpa using ha)
              cases b
              · simpa [select, rank] using hrest
              · rw [rank, select, Bool.toNat_true, Nat.add_comm, List.getElem?_cons_succ]
                exact hrest

/-- Every selected element stands at a kept position. -/
theorem exists_of_getElem?_select {kept : List Bool} {as : List α} {j : ℕ} {a : α}
    (h : (select kept as)[j]? = some a) :
    ∃ i, kept[i]? = some true ∧ as[i]? = some a ∧ rank kept i = j := by
  induction kept generalizing as j with
  | nil => simp [select] at h
  | cons b kept ih =>
      cases as with
      | nil => cases b <;> simp [select] at h
      | cons x as =>
          cases b with
          | false =>
              obtain ⟨i, hi, ha, hrank⟩ := ih (by simpa [select] using h)
              exact ⟨i + 1, by simpa using hi, by simpa using ha, by simpa [rank] using hrank⟩
          | true =>
              cases j with
              | zero => exact ⟨0, rfl, by simpa [select] using h, rfl⟩
              | succ j =>
                  obtain ⟨i, hi, ha, hrank⟩ := ih (by simpa [select] using h)
                  refine ⟨i + 1, by simpa using hi, by simpa using ha, ?_⟩
                  rw [rank, hrank, Bool.toNat_true, Nat.add_comm]

theorem select_set {kept : List Bool} {as : List α} {i : ℕ} (hkept : kept[i]? = some true)
    (a : α) : select kept (as.set i a) = (select kept as).set (rank kept i) a := by
  induction kept generalizing as i with
  | nil => simp at hkept
  | cons b kept ih =>
      cases as with
      | nil => cases b <;> simp [select]
      | cons x as =>
          cases i with
          | zero =>
              obtain rfl : b = true := by simpa using hkept
              rfl
          | succ i =>
              have hrest : select kept (as.set i a) = (select kept as).set (rank kept i) a :=
                ih (by simpa using hkept)
              cases b
              · simpa [select, rank] using hrest
              · rw [List.set_cons_succ, select, select, hrest, rank, Bool.toNat_true, Nat.add_comm,
                  List.set_cons_succ]

theorem select_set_other {kept : List Bool} {as : List α} {i : ℕ} (hkept : kept[i]? = some false)
    (a : α) : select kept (as.set i a) = select kept as := by
  induction kept generalizing as i with
  | nil => simp at hkept
  | cons b kept ih =>
      cases as with
      | nil => simp
      | cons x as =>
          cases i with
          | zero =>
              obtain rfl : b = false := by simpa using hkept
              rfl
          | succ i =>
              have hrest : select kept (as.set i a) = select kept as := ih (by simpa using hkept)
              cases b <;> simpa [select] using hrest

theorem select_append {kept : List Bool} {as : List α} (h : kept.length = as.length) (b : Bool)
    (more : List α) : select (kept ++ List.replicate more.length b) (as ++ more) =
      select kept as ++ if b then more else [] := by
  induction kept generalizing as with
  | nil =>
      obtain rfl := List.length_eq_zero_iff.mp h.symm
      induction more with
      | nil => cases b <;> simp [select]
      | cons x more ih =>
          cases b <;> simpa [select, List.replicate_succ] using ih
  | cons c kept ih =>
      cases as with
      | nil => simp at h
      | cons x as =>
          have hrest : select (kept ++ List.replicate more.length b) (as ++ more) =
              select kept as ++ if b then more else [] := ih (by simpa using h)
          cases c <;> simpa [select] using hrest

end Select

/-! ## Restricted runs -/

/-- The action of another session. -/
def Action.relabel (j : ℕ) : Action Input Arrival → Action Input Arrival
  | .arrive x => .arrive x
  | .look _ => .look j
  | .advance _ input => .advance j input
  | .abort _ => .abort j

/-- The session that acts. -/
def Action.session? : Action Input Arrival → Option ℕ
  | .arrive _ => none
  | .look i | .advance i _ | .abort i => some i

section Restrict
variable (own : Arrival → Bool) (starts : Arrival → ℕ)

/-- Which sessions there are after an action, and which of them are kept. -/
def nextKept (kept : List Bool) : Action Input Arrival → List Bool
  | .arrive x => kept ++ List.replicate (starts x) (own x)
  | _ => kept

/-- What is left of an action: own arrivals stay, and so do the actions of kept sessions. -/
def restrictAction (kept : List Bool) (a : Action Input Arrival) :
    Option (Action Input Arrival) :=
  match a with
  | .arrive x => if own x then some (.arrive x) else none
  | .look i | .advance i _ | .abort i =>
      if kept[i]? = some true then some (a.relabel (rank kept i)) else none

/-- A run without the arrivals of the other kind and the actions of their sessions. -/
def restrict : List Bool → List (Action Input Arrival) → List (Action Input Arrival)
  | _, [] => []
  | kept, a :: as =>
      (restrictAction own kept a).toList ++ restrict (nextKept own starts kept a) as

end Restrict

/-- The session, as it is where every store is projected. -/
def Session.project (π : Db → Db) (s : Session Db Write Lock Proc) :
    Session Db Write Lock Proc := { s with views := s.views.map π }

section Project
variable (π : Db → Db) (s : Session Db Write Lock Proc)

@[simp] theorem Session.proc_project : (s.project π).proc = s.proc := rfl
@[simp] theorem Session.pending_project : (s.project π).pending = s.pending := rfl
@[simp] theorem Session.locks_project : (s.project π).locks = s.locks := rfl

@[simp] theorem Session.project_fresh (p : Proc) :
    (Session.fresh p : Session Db Write Lock Proc).project π = .fresh p := rfl
@[simp] theorem Session.project_locked (key : Lock) (next : Proc) :
    (s.locked key next).project π = (s.project π).locked key next := rfl
@[simp] theorem Session.project_wrote (ws : List Write) (next : Proc) :
    (s.wrote ws next).project π = (s.project π).wrote ws next := rfl
@[simp] theorem Session.project_moved (next : Proc) :
    (s.moved next).project π = (s.project π).moved next := rfl

end Project

namespace Program

/-- The obligations of a program whose own sessions read only the projection of the store.
`G` holds of every store, `W` of every write and `Q` of every state of a session, own or
not. -/
structure Restriction (P : Program Db Write Lock Effect Proc Input Arrival)
    (own : Arrival → Bool) (starts : Arrival → ℕ) (accepted : Arrival → Prop) (π : Db → Db)
    (G : Db → Prop) (W : Bool → Write → Prop) (Q : Bool → Proc → Prop) : Prop where
  keep : ∀ {db b a}, G db → W b a → G (P.apply db a)
  project_own : ∀ {db a}, G db → W true a → π (P.apply db a) = P.apply (π db) a
  project_other : ∀ {db a}, G db → W false a → π (P.apply db a) = π db
  arrive : ∀ {db x ws ps}, G db → accepted x → P.arrive x db = some (ws, ps) →
    P.arrive x (π db) = some (ws, ps) ∧ ps.length = starts x ∧ (∀ a ∈ ws, W (own x) a) ∧
      (∀ p ∈ ps, Q (own x) p) ∧
        (own x = true → P.violatesAny db ws = false → P.violatesAny (π db) ws = false)
  error : ∀ {b p}, Q b p → Q b (P.onError p)
  step : ∀ {b db s input o}, Q b s.proc → (∀ k, G (P.reads db s k)) → G (P.view db s) →
    P.outcome db s input = some o →
      Q b o.next ∧ ∀ ws next, o = .write ws next → ∀ a ∈ ws, W b a
  same : ∀ {p input reads now}, Q true p → (∀ k, G (reads k)) → G now →
    P.step p input (fun k => π (reads k)) (π now) = P.step p input reads now
  violates : ∀ {db s input ws next a db'}, Q true s.proc → (∀ k, G (P.reads db s k)) →
    G (P.view db s) → P.outcome db s input = some (.write ws next) → a ∈ ws → G db' →
      P.violates (π db') a = P.violates db' a

namespace Restriction

variable {P : Program Db Write Lock Effect Proc Input Arrival}
  {own : Arrival → Bool} {starts : Arrival → ℕ} {accepted : Arrival → Prop} {π : Db → Db}
  {G : Db → Prop} {W : Bool → Write → Prop} {Q : Bool → Proc → Prop} {db : Db}
  {s : Session Db Write Lock Proc} {b : Bool}

/-- What holds of a session of one kind. -/
structure Tagged (G : Db → Prop) (W : Bool → Write → Prop) (Q : Bool → Proc → Prop) (b : Bool)
    (s : Session Db Write Lock Proc) : Prop where
  proc : Q b s.proc
  pending : ∀ a ∈ s.pending, W b a
  views : ∀ v ∈ s.views, G v

theorem Tagged.fresh {p : Proc} (h : Q b p) :
    Tagged G W Q b (.fresh p : Session Db Write Lock Proc) := ⟨h, by simp, by simp⟩

section Stores
variable (hR : Restriction P own starts accepted π G W Q)
include hR

theorem keep_applyAll {ws : List Write} (h : G db) (hws : ∀ a ∈ ws, W b a) :
    G (P.applyAll db ws) := by
  induction ws generalizing db with
  | nil => exact h
  | cons a ws ih =>
      obtain ⟨ha, hws⟩ := List.forall_mem_cons.mp hws
      exact ih (hR.keep h ha) hws

theorem project_applyAll {ws : List Write} (h : G db) (hws : ∀ a ∈ ws, W true a) :
    π (P.applyAll db ws) = P.applyAll (π db) ws := by
  induction ws generalizing db with
  | nil => rfl
  | cons a ws ih =>
      obtain ⟨ha, hws⟩ := List.forall_mem_cons.mp hws
      rw [applyAll_cons, applyAll_cons, ih (hR.keep h ha) hws, hR.project_own h ha]

theorem project_applyAll_other {ws : List Write} (h : G db) (hws : ∀ a ∈ ws, W false a) :
    π (P.applyAll db ws) = π db := by
  induction ws generalizing db with
  | nil => rfl
  | cons a ws ih =>
      obtain ⟨ha, hws⟩ := List.forall_mem_cons.mp hws
      rw [applyAll_cons, ih (hR.keep h ha) hws, hR.project_other h ha]

theorem keep_view (h : G db) (hs : Tagged G W Q b s) : G (P.view db s) :=
  hR.keep_applyAll h hs.pending

theorem keep_reads (h : G db) (hs : Tagged G W Q b s) (k : ℕ) : G (P.reads db s k) := by
  rcases P.reads_cases db s k with hmem | heq
  · exact hs.views _ hmem
  · exact heq ▸ hR.keep_view h hs

theorem view_project (h : G db) (hs : Tagged G W Q true s) :
    P.view (π db) (s.project π) = π (P.view db s) :=
  (hR.project_applyAll h hs.pending).symm

theorem reads_project (h : G db) (hs : Tagged G W Q true s) (k : ℕ) :
    P.reads (π db) (s.project π) k = π (P.reads db s k) := by
  unfold reads
  rw [hR.view_project h hs, Session.project, List.getD_map]

/-- An own session does the same on the projection. -/
theorem outcome_project (h : G db) (hs : Tagged G W Q true s) (input : Input) :
    P.outcome (π db) (s.project π) input = P.outcome db s input := by
  have hreads : P.reads (π db) (s.project π) = fun k => π (P.reads db s k) :=
    funext (hR.reads_project h hs)
  rw [outcome, hreads, hR.view_project h hs]
  exact hR.same hs.proc (hR.keep_reads h hs) (hR.keep_view h hs)

/-- Its writes violate a constraint there when they violate it here. -/
theorem violatesAny_project {input : Input} {ws : List Write} {next : Proc} (h : G db)
    (hs : Tagged G W Q true s) (ho : P.outcome db s input = some (.write ws next)) :
    P.violatesAny (P.view (π db) (s.project π)) ws = P.violatesAny (P.view db s) ws := by
  have hreads := hR.keep_reads h hs
  have hview := hR.keep_view h hs
  rw [hR.view_project h hs]
  have hown := (hR.step hs.proc hreads hview ho).2 ws next rfl
  have hsame : ∀ a ∈ ws, ∀ db, G db → P.violates (π db) a = P.violates db a :=
    fun a ha db hdb => hR.violates hs.proc hreads hview ho ha hdb
  clear ho
  generalize P.view db s = now at hview
  clear hreads
  induction ws generalizing now with
  | nil => rfl
  | cons a ws ih =>
      obtain ⟨ha, hws⟩ := List.forall_mem_cons.mp hown
      obtain ⟨hsa, hsws⟩ := List.forall_mem_cons.mp hsame
      rw [violatesAny, violatesAny, hsa now hview, ← hR.project_own hview ha,
        ih hws hsws _ (hR.keep hview ha)]

/-- A session that has looked stays as it should be. -/
theorem tagged_looked (h : G db) (hs : Tagged G W Q b s) :
    Tagged G W Q b (P.looked db s) := by
  refine ⟨hs.proc, hs.pending, fun v hv => ?_⟩
  rcases List.mem_append.mp hv with hv | hv
  · exact hs.views v hv
  · obtain rfl := List.mem_singleton.mp hv
    exact hR.keep_view h hs

end Stores

/-- A world beside the one that has only the kept sessions, on the projected store. -/
structure Restricts (G : Db → Prop) (W : Bool → Write → Prop) (Q : Bool → Proc → Prop)
    (π : Db → Db) (kept : List Bool) (w w' : World Db Write Lock Effect Proc) : Prop where
  store : G w.db
  db : w'.db = π w.db
  length : kept.length = w.sessions.length
  sessions : w'.sessions = (select kept w.sessions).map (Session.project π)
  tagged : ∀ {i : ℕ} {b : Bool} {s : Session Db Write Lock Proc}, kept[i]? = some b →
    w.sessions[i]? = some s → Tagged G W Q b s

namespace Restricts

variable {kept : List Bool} {w w' : World Db Write Lock Effect Proc} {i : ℕ}

theorem empty (h : G db) : Restricts G W Q π [] (⟨db, [], []⟩ : World Db Write Lock Effect Proc)
    ⟨π db, [], []⟩ := ⟨h, rfl, rfl, rfl, by simp⟩

theorem session (h : Restricts G W Q π kept w w') (hkept : kept[i]? = some true)
    (hs : w.sessions[i]? = some s) : w'.sessions[rank kept i]? = some (s.project π) := by
  rw [h.sessions, List.getElem?_map, getElem?_select hkept hs, Option.map_some]

/-- The other sessions of the restricted world are other sessions of the world. -/
theorem others (h : Restricts G W Q π kept w w') {j : ℕ} {t : Session Db Write Lock Proc}
    (ht : w'.sessions[j]? = some t) (hj : j ≠ rank kept i) :
    ∃ k t', k ≠ i ∧ w.sessions[k]? = some t' ∧ t'.project π = t := by
  rw [h.sessions, List.getElem?_map] at ht
  obtain ⟨t', ht', rfl⟩ := Option.map_eq_some_iff.mp ht
  obtain ⟨k, -, hk, rfl⟩ := exists_of_getElem?_select ht'
  exact ⟨k, t', fun heq => hj (by rw [heq]), hk, rfl⟩

theorem heldByOther [DecidableEq Lock] (h : Restricts G W Q π kept w w') {key : Lock}
    (hfree : w.heldByOther i key = false) : w'.heldByOther (rank kept i) key = false := by
  rw [World.heldByOther, List.any_eq_false]
  rintro ⟨t, j⟩ ht hheld
  obtain ⟨hj, hkey⟩ : j ≠ rank kept i ∧ key ∈ t.locks := by simpa using hheld
  obtain ⟨k, t', hk, ht', rfl⟩ := h.others (List.mem_zipIdx_iff_getElem?.mp ht) hj
  exact World.not_heldByOther hfree ht' hk hkey

theorem blocked (h : Restricts G W Q π kept w w') {ws : List Write}
    (hfree : P.blocked w i ws = false) : P.blocked w' (rank kept i) ws = false := by
  rw [Program.blocked, List.any_eq_false]
  rintro ⟨t, j⟩ ht hblocked
  simp only [ne_eq, decide_not, Bool.and_eq_true, Bool.not_eq_true', decide_eq_false_iff_not,
    List.any_eq_true] at hblocked
  obtain ⟨hj, a, ha, b, hb, hclash⟩ := hblocked
  obtain ⟨k, t', hk, ht', rfl⟩ := h.others (List.mem_zipIdx_iff_getElem?.mp ht) hj
  rw [P.not_blocked hfree ht' hk ha hb] at hclash
  cases hclash

/-- An own session has moved, here and there. -/
theorem setSession (h : Restricts G W Q π kept w w') (hkept : kept[i]? = some true)
    (hs : Tagged G W Q true s) :
    Restricts G W Q π kept (w.setSession i s) (w'.setSession (rank kept i) (s.project π)) where
  store := h.store
  db := h.db
  length := by simpa using h.length
  sessions := by
    rw [World.sessions_setSession, World.sessions_setSession, select_set hkept, List.map_set,
      h.sessions]
  tagged {k b t} hk ht := by
    rw [World.sessions_setSession, List.getElem?_set] at ht
    split at ht
    · rename_i hik
      subst hik
      obtain rfl : true = b := Option.some.inj (hkept.symm.trans hk)
      split at ht
      · exact Option.some.inj ht ▸ hs
      · cases ht
    · exact h.tagged hk ht

/-- Another session has moved. -/
theorem setSession_other (h : Restricts G W Q π kept w w') (hkept : kept[i]? = some false)
    (hs : Tagged G W Q false s) : Restricts G W Q π kept (w.setSession i s) w' where
  store := h.store
  db := h.db
  length := by simpa using h.length
  sessions := by rw [World.sessions_setSession, select_set_other hkept, h.sessions]
  tagged {k b t} hk ht := by
    rw [World.sessions_setSession, List.getElem?_set] at ht
    split at ht
    · rename_i hik
      subst hik
      obtain rfl : false = b := Option.some.inj (hkept.symm.trans hk)
      split at ht
      · exact Option.some.inj ht ▸ hs
      · cases ht
    · exact h.tagged hk ht

/-- Stores have changed alike. -/
theorem commit (h : Restricts G W Q π kept w w') {db db' : Db} (hdb : G db) (hproject : db' = π db) :
    Restricts G W Q π kept { w with db := db } { w' with db := db' } :=
  ⟨hdb, hproject, h.length, h.sessions, h.tagged⟩

/-- The calls do not matter. -/
theorem called (h : Restricts G W Q π kept w w') (calls calls' : List (ℕ × Effect)) :
    Restricts G W Q π kept { w with calls := calls } { w' with calls := calls' } :=
  ⟨h.store, h.db, h.length, h.sessions, h.tagged⟩

end Restricts

section Steps
variable [DecidableEq Lock] {kept : List Bool} {w w' u : World Db Write Lock Effect Proc} {i : ℕ}
  (hR : Restriction P own starts accepted π G W Q)
include hR

/-- An own session's outcome is carried out there as it is here. -/
theorem perform_own (h : Restricts G W Q π kept w w') (hkept : kept[i]? = some true)
    (hs : w.sessions[i]? = some s) {input : Input} {o : Outcome Write Lock Effect Proc}
    (ho : P.outcome w.db s input = some o) (hu : P.perform w i s o = some u) :
    ∃ u', P.perform w' (rank kept i) (s.project π) o = some u' ∧ Restricts G W Q π kept u u' := by
  have htag := h.tagged hkept hs
  obtain ⟨hnext, hws⟩ := hR.step htag.proc (hR.keep_reads h.store htag)
    (hR.keep_view h.store htag) ho
  cases o with
  | lock key next =>
      simp only [perform] at hu ⊢
      split at hu
      · cases hu
      · rename_i hfree
        cases hu
        rw [if_neg (by simp [h.heldByOther (by simpa using hfree)])]
        exact ⟨_, rfl, h.setSession hkept (s := s.locked key next)
          ⟨hnext, htag.pending, by simp [Session.locked]⟩⟩
  | write ws next =>
      simp only [perform] at hu ⊢
      split at hu
      · cases hu
      · rename_i hfree
        have hfree' := h.blocked ((Bool.not_eq_true _).mp hfree)
        rw [if_neg (by simp [hfree']), h.db, hR.violatesAny_project h.store htag ho]
        split at hu
        · rename_i hbad
          cases hu
          rw [if_pos hbad]
          exact ⟨_, rfl, h.setSession hkept (.fresh (hR.error htag.proc))⟩
        · rename_i hok
          cases hu
          rw [if_neg hok]
          refine ⟨_, rfl, h.setSession hkept (s := s.wrote ws next) ⟨hnext, fun a ha => ?_, ?_⟩⟩
          · rcases List.mem_append.mp ha with ha | ha
            · exact htag.pending a ha
            · exact hws ws next rfl a ha
          · simp [Session.wrote]
  | call effect next =>
      cases hu
      exact ⟨_, rfl, (h.setSession hkept (s := s.moved next)
        ⟨hnext, htag.pending, by simp [Session.moved]⟩).called _ _⟩
  | commit next =>
      cases hu
      refine ⟨_, rfl, (h.setSession hkept (.fresh hnext)).commit (hR.keep_view h.store htag) ?_⟩
      rw [h.db, hR.view_project h.store htag]
  | rollback next =>
      cases hu
      exact ⟨_, rfl, h.setSession hkept (.fresh hnext)⟩

/-- Another session's outcome changes nothing there. -/
theorem perform_other (h : Restricts G W Q π kept w w') (hkept : kept[i]? = some false)
    (hs : w.sessions[i]? = some s) {input : Input} {o : Outcome Write Lock Effect Proc}
    (ho : P.outcome w.db s input = some o) (hu : P.perform w i s o = some u) :
    Restricts G W Q π kept u w' := by
  have htag := h.tagged hkept hs
  obtain ⟨hnext, hws⟩ := hR.step htag.proc (hR.keep_reads h.store htag)
    (hR.keep_view h.store htag) ho
  cases o with
  | lock key next =>
      simp only [perform] at hu
      split at hu
      · cases hu
      · cases hu
        exact h.setSession_other hkept (s := s.locked key next)
          ⟨hnext, htag.pending, by simp [Session.locked]⟩
  | write ws next =>
      simp only [perform] at hu
      split at hu
      · cases hu
      · split at hu
        · cases hu
          exact h.setSession_other hkept (.fresh (hR.error htag.proc))
        · cases hu
          refine h.setSession_other hkept (s := s.wrote ws next) ⟨hnext, fun a ha => ?_, ?_⟩
          · rcases List.mem_append.mp ha with ha | ha
            · exact htag.pending a ha
            · exact hws ws next rfl a ha
          · simp [Session.wrote]
  | call effect next =>
      cases hu
      exact (h.setSession_other hkept (s := s.moved next)
        ⟨hnext, htag.pending, by simp [Session.moved]⟩).called _ _
  | commit next =>
      cases hu
      refine (h.setSession_other hkept (.fresh hnext)).commit (hR.keep_view h.store htag) ?_
      rw [h.db, Program.view, hR.project_applyAll_other h.store htag.pending]
  | rollback next =>
      cases hu
      exact h.setSession_other hkept (.fresh hnext)

/-- An arrival starts its sessions there when it is an own one. -/
theorem step_arrive (h : Restricts G W Q π kept w w') {x : Arrival} (hx : accepted x)
    (hu : P.worldStep w (.arrive x) = some u) :
    ∃ u', Run.exec P.worldStep w' (restrictAction own kept (.arrive x : Action Input Arrival)).toList
      = some u' ∧ Restricts G W Q π (kept ++ List.replicate (starts x) (own x)) u u' := by
  cases Program.stepped hu with
  | @arrived _ ws ps harr hok hfree =>
      obtain ⟨harr', hlength, hws, hps, hok'⟩ := hR.arrive h.store hx harr
      have hstore := hR.keep_applyAll h.store hws
      have hselect : ∀ b, select (kept ++ List.replicate (starts x) b)
          (w.sessions ++ ps.map Session.fresh) =
            select kept w.sessions ++ if b then ps.map Session.fresh else [] := by
        intro b
        have hfresh : starts x = (ps.map (Session.fresh : _ → Session Db Write Lock Proc)).length := by
          rw [List.length_map, hlength]
        rw [hfresh]
        exact select_append h.length b _
      have htagged : ∀ {i : ℕ} {b : Bool} {s : Session Db Write Lock Proc},
          (kept ++ List.replicate (starts x) (own x))[i]? = some b →
            (w.sessions ++ ps.map Session.fresh)[i]? = some s → Tagged G W Q b s := by
        intro i b s hb hs
        rcases Nat.lt_or_ge i w.sessions.length with hi | hi
        · rw [List.getElem?_append_left (h.length ▸ hi)] at hb
          rw [List.getElem?_append_left hi] at hs
          exact h.tagged hb hs
        · rw [List.getElem?_append_right (h.length ▸ hi)] at hb
          rw [List.getElem?_append_right hi] at hs
          obtain rfl := List.eq_of_mem_replicate (List.mem_of_getElem? hb)
          obtain ⟨p, hp, rfl⟩ := List.mem_map.mp (List.mem_of_getElem? hs)
          exact .fresh (hps p hp)
      have hnew : (kept ++ List.replicate (starts x) (own x)).length =
          (w.sessions ++ ps.map Session.fresh).length := by
        simp [h.length, hlength]
      cases hown : own x with
      | false =>
          rw [hown] at hws hnew htagged
          refine ⟨w', by simp [restrictAction, hown], hstore, ?_, hnew, ?_, htagged⟩
          · rw [h.db, hR.project_applyAll_other h.store hws]
          · rw [hselect false, h.sessions]
            simp
      | true =>
          rw [hown] at hws hnew htagged
          have hblocked : P.blocked w' w'.sessions.length ws = false := by
            rw [blocked, List.any_eq_false]
            rintro ⟨t, j⟩ ht hblocked
            have hmem := List.mem_of_getElem? (List.mem_zipIdx_iff_getElem?.mp ht)
            rw [h.sessions] at hmem
            obtain ⟨t', ht', rfl⟩ := List.mem_map.mp hmem
            obtain ⟨k, hk⟩ := List.mem_iff_getElem?.mp ht'
            obtain ⟨k', -, hk', -⟩ := exists_of_getElem?_select hk
            simp only [Session.pending_project, Bool.and_eq_true, List.any_eq_true] at hblocked
            obtain ⟨-, a, ha, b, hb, hclash⟩ := hblocked
            rw [hfree t' (List.mem_of_getElem? hk') a ha b hb] at hclash
            cases hclash
          refine ⟨{ w' with db := P.applyAll (π w.db) ws,
                            sessions := w'.sessions ++ ps.map Session.fresh },
            ?_, hstore, (hR.project_applyAll h.store hws).symm, hnew, ?_, htagged⟩
          · simp [restrictAction, hown, worldStep, h.db, harr', hok' hown hok, hblocked]
          · rw [hselect true, h.sessions]
            simp

/-- An action of a session is carried out there when the session is kept. -/
theorem step_session (h : Restricts G W Q π kept w w') {a : Action Input Arrival}
    (ha : a.session? = some i) (hu : P.worldStep w a = some u) :
    ∃ u', Run.exec P.worldStep w' (restrictAction own kept a).toList = some u' ∧
      Restricts G W Q π kept u u' := by
  have hkind : ∀ s, w.sessions[i]? = some s → kept[i]? = some true ∨ kept[i]? = some false := by
    intro s hs
    have hlt : i < kept.length := h.length ▸ (List.getElem?_eq_some_iff.mp hs).1
    rw [List.getElem?_eq_getElem hlt]
    cases kept[i] <;> simp
  cases a with
  | arrive x => cases ha
  | look j =>
      obtain rfl := Option.some.inj ha
      obtain ⟨s, hs, rfl⟩ := Option.map_eq_some_iff.mp hu
      rcases hkind s hs with hkept | hkept
      · have htag := h.tagged hkept hs
        have hlooked : P.looked w'.db (s.project π) = (P.looked w.db s).project π := by
          rw [looked, h.db, hR.view_project h.store htag]
          simp [Session.project, looked]
        refine ⟨_, ?_, h.setSession hkept (hR.tagged_looked h.store htag)⟩
        simp [restrictAction, hkept, Action.relabel, worldStep, h.session hkept hs, hlooked]
      · exact ⟨w', by simp [restrictAction, hkept],
          h.setSession_other hkept (hR.tagged_looked h.store (h.tagged hkept hs))⟩
  | abort j =>
      obtain rfl := Option.some.inj ha
      obtain ⟨s, hs, rfl⟩ := Option.map_eq_some_iff.mp hu
      rcases hkind s hs with hkept | hkept
      · refine ⟨_, ?_, h.setSession hkept (.fresh (hR.error (h.tagged hkept hs).proc))⟩
        simp [restrictAction, hkept, Action.relabel, worldStep, h.session hkept hs]
      · exact ⟨w', by simp [restrictAction, hkept],
          h.setSession_other hkept (.fresh (hR.error (h.tagged hkept hs).proc))⟩
  | advance j input =>
      obtain rfl := Option.some.inj ha
      simp only [worldStep] at hu
      split at hu
      · cases hu
      · rename_i s hs
        split at hu
        · cases hu
        · rename_i o ho
          rcases hkind s hs with hkept | hkept
          · have hsame := hR.outcome_project h.store (h.tagged hkept hs) input
            obtain ⟨u', hu', hnext⟩ := hR.perform_own h hkept hs ho hu
            refine ⟨u', ?_, hnext⟩
            simp [restrictAction, hkept, Action.relabel, worldStep, h.session hkept hs, h.db, hsame,
              ho, hu']
          · exact ⟨w', by simp [restrictAction, hkept], hR.perform_other h hkept hs ho hu⟩

/-- What is left of a run is a run, and leaves the projection of the store. -/
theorem exec (h : Restricts G W Q π kept w w') {as : List (Action Input Arrival)}
    (haccepted : ∀ x, .arrive x ∈ as → accepted x) (hrun : Run.exec P.worldStep w as = some u) :
    ∃ u', Run.exec P.worldStep w' (restrict own starts kept as) = some u' ∧ u'.db = π u.db := by
  induction as generalizing w w' kept with
  | nil =>
      obtain rfl := Option.some.inj hrun
      exact ⟨w', rfl, h.db⟩
  | cons a as ih =>
      obtain ⟨v, hv, hrest⟩ := Option.bind_eq_some_iff.mp hrun
      have hrestaccepted : ∀ x, .arrive x ∈ as → accepted x :=
        fun x hx => haccepted x (List.mem_cons_of_mem a hx)
      have hstep : ∃ v', Run.exec P.worldStep w' (restrictAction own kept a).toList = some v' ∧
          Restricts G W Q π (nextKept own starts kept a) v v' := by
        cases a with
        | arrive x => exact hR.step_arrive h (haccepted x List.mem_cons_self) hv
        | look i => exact hR.step_session h rfl hv
        | advance i input => exact hR.step_session h rfl hv
        | abort i => exact hR.step_session h rfl hv
      obtain ⟨v', hv', hnext⟩ := hstep
      obtain ⟨u', hu', hdb⟩ := ih hnext hrestaccepted hrest
      exact ⟨u', by rw [restrict, Run.exec_append_of_eq hv', hu'], hdb⟩

end Steps

end Restriction

end Program

end Transaction
