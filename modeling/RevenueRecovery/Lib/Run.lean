import Mathlib.Data.List.Basic

/-!
# Runs of a partial step function

`exec step s as` performs the labelled actions `as` from `s`, and fails as soon as
one of them is not enabled. Invariants are carried from one step to a whole run,
and a run whose steps all satisfy a guard carries invariants the guard protects.

## Main definitions
* `exec` : the run of a list of actions.
* `Guarded` : every step of a run meets a condition on its pre-state and action.
* `execGuarded` : the run that stops at the first step that does not.
* `Occurs` : some step of a run does.
* `collect` : what the steps of a run yield.
-/
namespace Run

variable {σ α : Type*} {step : σ → α → Option σ}

/-- Perform the actions in order; `none` when one of them is not enabled. -/
def exec (step : σ → α → Option σ) : σ → List α → Option σ
  | s, [] => some s
  | s, a :: as => (step s a).bind fun s' => exec step s' as

@[simp] theorem exec_nil (s : σ) : exec step s [] = some s := rfl

@[simp] theorem exec_cons (s : σ) (a : α) (as : List α) :
    exec step s (a :: as) = (step s a).bind fun s' => exec step s' as := rfl

theorem exec_append (s : σ) (as bs : List α) :
    exec step s (as ++ bs) = (exec step s as).bind fun s' => exec step s' bs := by
  induction as generalizing s with
  | nil => rfl
  | cons a as ih =>
      simp only [List.cons_append, exec_cons]
      cases h : step s a with
      | none => rfl
      | some s' => simpa using ih s'

theorem exec_append_of_eq {s s' : σ} {as bs : List α} (h : exec step s as = some s') :
    exec step s (as ++ bs) = exec step s' bs := by
  rw [exec_append, h]; rfl

theorem exec_snoc {s t u : σ} {as : List α} {a : α} (h : exec step s as = some t)
    (ha : step t a = some u) : exec step s (as ++ [a]) = some u := by
  rw [exec_append_of_eq h]
  simp [ha]

/-- A step-preserved property holds at the end of every run that starts in it. -/
theorem invariant_exec {Inv : σ → Prop}
    (hstep : ∀ s a s', Inv s → step s a = some s' → Inv s') {s t : σ} {as : List α}
    (hs : Inv s) (h : exec step s as = some t) : Inv t := by
  induction as generalizing s with
  | nil => cases h; exact hs
  | cons a as ih =>
      obtain ⟨s', ha, hrest⟩ := Option.bind_eq_some_iff.mp h
      exact ih (hstep s a s' hs ha) hrest

/-- Every step the actions `as` perform from `s` meets the guard in its pre-state. -/
def Guarded (step : σ → α → Option σ) (guard : σ → α → Prop) : σ → List α → Prop
  | _, [] => True
  | s, a :: as => guard s a ∧ ∀ s', step s a = some s' → Guarded step guard s' as

/-- Guarded runs keep what a guarded step keeps. -/
theorem invariant_guarded {Inv : σ → Prop} {guard : σ → α → Prop}
    (hstep : ∀ s a s', Inv s → guard s a → step s a = some s' → Inv s') {s t : σ}
    {as : List α} (hs : Inv s) (hg : Guarded step guard s as)
    (h : exec step s as = some t) : Inv t := by
  induction as generalizing s with
  | nil => cases h; exact hs
  | cons a as ih =>
      obtain ⟨s', ha, hrest⟩ := Option.bind_eq_some_iff.mp h
      exact ih (hstep s a s' hs hg.1 ha) (hg.2 s' ha) hrest

/-- A run that meets a guard meets every weaker one. -/
theorem Guarded.mono {guard guard' : σ → α → Prop} (himp : ∀ s a, guard s a → guard' s a)
    {s : σ} {as : List α} (h : Guarded step guard s as) : Guarded step guard' s as := by
  induction as generalizing s with
  | nil => exact trivial
  | cons a as ih => exact ⟨himp s a h.1, fun s' hs' => ih (h.2 s' hs')⟩

/-- A run that meets two guards meets both at each step. -/
theorem Guarded.and {guard guard' : σ → α → Prop} {s : σ} {as : List α}
    (h : Guarded step guard s as) (h' : Guarded step guard' s as) :
    Guarded step (fun s a => guard s a ∧ guard' s a) s as := by
  induction as generalizing s with
  | nil => exact trivial
  | cons a as ih => exact ⟨⟨h.1, h'.1⟩, fun s' hs' => ih (h.2 s' hs') (h'.2 s' hs')⟩

/-- Guarded runs compose. -/
theorem Guarded.append {guard : σ → α → Prop} {s t : σ} {as bs : List α}
    (h : exec step s as = some t) (has : Guarded step guard s as)
    (hbs : Guarded step guard t bs) : Guarded step guard s (as ++ bs) := by
  induction as generalizing s with
  | nil => cases h; exact hbs
  | cons a as ih =>
      obtain ⟨s', ha, hrest⟩ := Option.bind_eq_some_iff.mp h
      refine ⟨has.1, fun u hu => ?_⟩
      obtain rfl : s' = u := Option.some.inj (ha.symm.trans hu)
      exact ih hrest (has.2 s' ha)

/-- A run is guarded when the guard holds wherever the run passes. -/
theorem guarded_of_forall {guard : σ → α → Prop} {s : σ} {as : List α}
    (h : ∀ as₁ a as₂ t, as = as₁ ++ a :: as₂ → exec step s as₁ = some t → guard t a) :
    Guarded step guard s as := by
  induction as generalizing s with
  | nil => exact trivial
  | cons a as ih =>
      refine ⟨h [] a as s rfl rfl, fun s' hs' => ih fun as₁ b as₂ t heq ht => ?_⟩
      exact h (a :: as₁) b as₂ t (by rw [heq, List.cons_append]) (by simp [hs', ht])

/-- A guarded run is guarded up to every point and from there on. -/
theorem guarded_append {guard : σ → α → Prop} {s t : σ} {as bs : List α}
    (h : exec step s as = some t) (hg : Guarded step guard s (as ++ bs)) :
    Guarded step guard s as ∧ Guarded step guard t bs := by
  induction as generalizing s with
  | nil => cases h; exact ⟨trivial, hg⟩
  | cons a as ih =>
      obtain ⟨s', ha, hrest⟩ := Option.bind_eq_some_iff.mp h
      obtain ⟨hleft, hright⟩ := ih hrest (hg.2 s' ha)
      refine ⟨⟨hg.1, fun u hu => ?_⟩, hright⟩
      obtain rfl : s' = u := Option.some.inj (ha.symm.trans hu)
      exact hleft

/-- Some step of the run satisfies the property in its pre-state. -/
def Occurs (step : σ → α → Option σ) (s : σ) (as : List α) (φ : σ → α → Prop) : Prop :=
  ∃ as₁ a as₂ t, as = as₁ ++ a :: as₂ ∧ exec step s as₁ = some t ∧ φ t a

/-- A guarded run does nothing its invariant and guard rule out. -/
theorem not_occurs {Inv : σ → Prop} {guard φ : σ → α → Prop}
    (hstep : ∀ s a s', Inv s → guard s a → step s a = some s' → Inv s')
    (hnot : ∀ s a, Inv s → guard s a → ¬φ s a) {s : σ} {as : List α} (hs : Inv s)
    (hg : Guarded step guard s as) : ¬Occurs step s as φ := by
  rintro ⟨as₁, a, as₂, t, rfl, ht, hφ⟩
  obtain ⟨hbefore, hat⟩ := guarded_append ht hg
  exact hnot t a (invariant_guarded hstep hs hbefore ht) hat.1 hφ

/-- What the steps of a run yield, in order. -/
def collect {β : Type*} (step : σ → α → Option σ) (f : σ → α → Option β) : σ → List α → List β
  | _, [] => []
  | s, a :: as => (f s a).toList ++ ((step s a).map fun s' => collect step f s' as).getD []

/-- What a run yields, some step of it does. -/
theorem mem_collect {β : Type*} {f : σ → α → Option β} {s : σ} {as : List α} {b : β} :
    b ∈ collect step f s as ↔ Occurs step s as fun t a => f t a = some b := by
  induction as generalizing s with
  | nil => simp [collect, Occurs]
  | cons a as ih =>
      rw [collect, List.mem_append, Option.mem_toList]
      constructor
      · rintro (ha | hrest)
        · exact ⟨[], a, as, s, rfl, rfl, ha⟩
        · cases hs : step s a with
          | none => simp [hs] at hrest
          | some s' =>
              have hmem : b ∈ collect step f s' as := by simpa [hs] using hrest
              obtain ⟨as₁, c, as₂, t, heq, ht, hc⟩ := ih.mp hmem
              exact ⟨a :: as₁, c, as₂, t, by rw [heq, List.cons_append], by simp [hs, ht], hc⟩
      · rintro ⟨as₁, c, as₂, t, heq, ht, hc⟩
        cases as₁ with
        | nil =>
            obtain ⟨rfl, rfl⟩ := List.cons.inj heq
            cases ht
            exact .inl hc
        | cons a' as₁ =>
            obtain ⟨rfl, rfl⟩ := List.cons.inj heq
            obtain ⟨s', hs, hrest⟩ := Option.bind_eq_some_iff.mp ht
            refine .inr ?_
            simp only [hs, Option.map_some, Option.getD_some]
            exact ih.mpr ⟨as₁, c, as₂, t, rfl, hrest, hc⟩

/-- What a step keeps of the state and of what the run has yielded so far holds at the end of
every run of such actions. -/
theorem invariant_collect {β : Type*} {f : σ → α → Option β} {allowed : α → Prop}
    (Inv : List β → σ → Prop)
    (hstep : ∀ bs s a s', Inv bs s → allowed a → step s a = some s' →
      Inv (bs ++ (f s a).toList) s') {s t : σ} {as : List α} (hs : Inv [] s)
    (hall : ∀ a ∈ as, allowed a) (h : exec step s as = some t) : Inv (collect step f s as) t := by
  suffices hgen : ∀ bs, Inv bs s → Inv (bs ++ collect step f s as) t from hgen [] hs
  clear hs
  induction as generalizing s with
  | nil =>
      intro bs hs
      cases h
      simpa [collect] using hs
  | cons a as ih =>
      intro bs hs
      obtain ⟨u, hu, hrest⟩ := Option.bind_eq_some_iff.mp h
      have hnext := hstep bs s a u hs (hall a List.mem_cons_self) hu
      have htail := ih (fun b hb => hall b (List.mem_cons_of_mem a hb)) hrest _ hnext
      simpa [collect, hu] using htail

/-- What a guarded step keeps of the state and of the actions so far holds at the end of
every guarded run. -/
theorem invariant_history {guard : σ → α → Prop} (Inv : List α → σ → Prop)
    (hstep : ∀ as s a s', Inv as s → guard s a → step s a = some s' → Inv (as ++ [a]) s')
    {s t : σ} {as : List α} (hs : Inv [] s) (hg : Guarded step guard s as)
    (h : exec step s as = some t) : Inv as t := by
  suffices hgen : ∀ before, Inv before s → Inv (before ++ as) t from hgen [] hs
  clear hs
  induction as generalizing s with
  | nil =>
      intro before hs
      cases h
      simpa using hs
  | cons a as ih =>
      intro before hs
      obtain ⟨u, hu, hrest⟩ := Option.bind_eq_some_iff.mp h
      have hnext := hstep before s a u hs hg.1 hu
      simpa using ih (hg.2 u hu) hrest _ hnext

/-- Perform the actions in order while each meets the guard. -/
def execGuarded (step : σ → α → Option σ) (guard : σ → α → Prop)
    [∀ s a, Decidable (guard s a)] : σ → List α → Option σ
  | s, [] => some s
  | s, a :: as => if guard s a then (step s a).bind fun s' => execGuarded step guard s' as else none

theorem execGuarded_eq_some {guard : σ → α → Prop} [∀ s a, Decidable (guard s a)] {s t : σ}
    {as : List α} :
    execGuarded step guard s as = some t ↔ Guarded step guard s as ∧ exec step s as = some t := by
  induction as generalizing s with
  | nil => simp [execGuarded, Guarded]
  | cons a as ih =>
      by_cases hg : guard s a
      · cases ha : step s a with
        | none => simp [execGuarded, hg, ha]
        | some s' => simp [execGuarded, Guarded, hg, ha, ih]
      · simp [execGuarded, Guarded, hg]

end Run
