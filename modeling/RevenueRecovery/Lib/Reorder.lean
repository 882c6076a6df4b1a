import Mathlib.Data.List.Basic
import Mathlib.Data.List.Perm.Basic

/-!
# Folds in any order

A fold over items whose steps commute gives the same result in every order. "The same" is a
relation the steps respect, such as having the same rows; it need hold of a state and itself
only where the state is well formed.

## Main results
* `foldl_congr` : related states stay related.
* `foldl_perm` : items any two of which commute can be taken in any order.
-/
namespace Reorder

variable {σ ι : Type*} {step : σ → ι → σ} {Same : σ → σ → Prop} {Apart : ι → ι → Prop}

/-- Steps that respect a relation take related states to related ones. -/
theorem foldl_congr (hcongr : ∀ s t i, Same s t → Same (step s i) (step t i)) {s t : σ}
    (h : Same s t) (items : List ι) : Same (items.foldl step s) (items.foldl step t) := by
  induction items generalizing s t with
  | nil => exact h
  | cons i items ih => exact ih (hcongr s t i h)

variable (Same Apart) in
/-- The order of items does not matter when any two of them commute. -/
theorem foldl_perm (htrans : ∀ {s t u}, Same s t → Same t u → Same s u)
    (hcongr : ∀ s t i, Same s t → Same (step s i) (step t i))
    (hapart : ∀ {i j}, Apart i j → Apart j i)
    (hcomm : ∀ s i j, Same s s → Apart i j → Same (step (step s i) j) (step (step s j) i))
    {items items' : List ι} (hperm : items.Perm items') (hitems : items.Pairwise Apart) {s : σ}
    (hs : Same s s) : Same (items.foldl step s) (items'.foldl step s) := by
  induction hperm generalizing s with
  | nil => exact hs
  | cons i _ ih => exact ih hitems.of_cons (hcongr s s i hs)
  | swap i j items =>
      have hij : Apart j i := List.rel_of_pairwise_cons hitems List.mem_cons_self
      exact foldl_congr hcongr (hcomm s j i hs hij) items
  | trans h _ ih ih' =>
      have hmiddle := (h.pairwise_iff hapart).mp hitems
      exact htrans (ih hitems hs) (ih' hmiddle hs)

end Reorder
