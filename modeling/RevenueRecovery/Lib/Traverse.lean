import Mathlib.Data.List.Forall2

/-!
# Fallible results

A sequence of results is there when each of them is. `xs.mapM f` is there when `f` succeeds
on every element of `xs`, and then holds the results in order.

## Main results
* `bind_eq_ok`, `mapError_eq_ok` : the parts of a sequence.
* `mapM_eq_ok` : the results, element by element.
* `mapM_take`, `mapM_drop` : the results of a part of the list.
* `eq_of_mapM_eq_ok`, `mapM_congr` : functions that agree on the list.
-/
namespace Traverse

variable {ε α β : Type}

theorem bind_eq_ok {r : Except ε α} {f : α → Except ε β} {b : β} (h : r.bind f = .ok b) :
    ∃ a, r = .ok a ∧ f a = .ok b := by
  cases r with
  | error e => cases h
  | ok a => exact ⟨a, rfl, h⟩

theorem mapError_eq_ok {ε' : Type} {r : Except ε α} {f : ε → ε'} {a : α} :
    r.mapError f = .ok a ↔ r = .ok a := by
  cases r with
  | error e => exact ⟨(fun h => by cases h), fun h => by cases h⟩
  | ok a' => exact ⟨fun h => by rw [Except.ok.inj h], fun h => by rw [Except.ok.inj h]; rfl⟩

theorem elim_eq_ok {v : Option α} {e : ε} {a : α}
    (h : v.elim (Except.error e) Except.ok = .ok a) : v = some a := by
  cases v with
  | none => cases h
  | some a' => exact congrArg some (Except.ok.inj h)

/-- A list of results, each of which is there. -/
theorem mapM_eq_ok {f : α → Except ε β} {xs : List α} {ys : List β} :
    xs.mapM f = .ok ys ↔ List.Forall₂ (fun x y => f x = .ok y) xs ys := by
  induction xs generalizing ys with
  | nil =>
      rw [List.mapM_nil, List.forall₂_nil_left_iff]
      exact ⟨fun h => (Except.ok.inj h).symm, fun h => h ▸ rfl⟩
  | cons x xs ih =>
      rw [List.mapM_cons]
      cases hx : f x with
      | error e =>
          refine ⟨(fun h => by cases h), fun h => ?_⟩
          cases h with
          | cons hxy _ => cases hx.symm.trans hxy
      | ok y =>
          cases hxs : xs.mapM f with
          | error e =>
              refine ⟨(fun h => by cases h), fun h => ?_⟩
              cases h with
              | cons _ hrest => cases hxs.symm.trans (ih.mpr hrest)
          | ok zs =>
              refine ⟨fun h => ?_, fun h => ?_⟩
              · obtain rfl : y :: zs = ys := Except.ok.inj h
                exact .cons hx (ih.mp hxs)
              · cases h with
                | cons hxy hrest =>
                    obtain rfl := Except.ok.inj (hx.symm.trans hxy)
                    obtain rfl := Except.ok.inj (hxs.symm.trans (ih.mpr hrest))
                    rfl

theorem mapM_take {f : α → Except ε β} {xs : List α} {ys : List β} (h : xs.mapM f = .ok ys)
    (n : ℕ) : (xs.take n).mapM f = .ok (ys.take n) :=
  mapM_eq_ok.mpr (List.forall₂_take n (mapM_eq_ok.mp h))

theorem mapM_drop {f : α → Except ε β} {xs : List α} {ys : List β} (h : xs.mapM f = .ok ys)
    (n : ℕ) : (xs.drop n).mapM f = .ok (ys.drop n) :=
  mapM_eq_ok.mpr (List.forall₂_drop n (mapM_eq_ok.mp h))

theorem exists_of_mapM_eq_ok {f : α → Except ε β} {xs : List α} {ys : List β}
    (h : xs.mapM f = .ok ys) : ∀ x ∈ xs, ∃ y, f x = .ok y := by
  have hs := mapM_eq_ok.mp h
  clear h
  induction hs with
  | nil => exact fun _ hmem => absurd hmem List.not_mem_nil
  | @cons x y _ _ hx _ ih =>
      rintro x' hmem
      rcases List.mem_cons.mp hmem with rfl | hmem
      · exact ⟨y, hx⟩
      · exact ih x' hmem

/-- Two functions with one list of results agree on the list. -/
theorem eq_of_mapM_eq_ok {f g : α → Except ε β} {xs : List α} {ys : List β}
    (hf : xs.mapM f = .ok ys) (hg : xs.mapM g = .ok ys) : ∀ x ∈ xs, f x = g x := by
  have hfs := mapM_eq_ok.mp hf
  have hgs := mapM_eq_ok.mp hg
  clear hf hg
  induction hfs with
  | nil => exact fun _ hmem => absurd hmem List.not_mem_nil
  | cons hx _ ih =>
      cases hgs with
      | cons hx' hrest =>
          rintro x' hmem
          rcases List.mem_cons.mp hmem with rfl | hmem
          · exact hx.trans hx'.symm
          · exact ih hrest x' hmem

theorem mapM_congr {f g : α → Except ε β} {xs : List α} (h : ∀ x ∈ xs, f x = g x) :
    xs.mapM f = xs.mapM g := by
  induction xs with
  | nil => rfl
  | cons x xs ih =>
      rw [List.mapM_cons, List.mapM_cons, h x List.mem_cons_self,
        ih fun x' hx' => h x' (List.mem_cons_of_mem _ hx')]

end Traverse
