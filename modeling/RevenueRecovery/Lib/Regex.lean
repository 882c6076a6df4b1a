import Mathlib.Data.List.Infix
import Mathlib.Data.List.Basic

/-!
# Anchored regular expressions

Engines differ in where `$` matches: for some only at the end of the text, for others also
before a newline that ends it. They differ too in what a call asks for: a match of the whole
text, or one anywhere in it. For a pattern with an anchor at both ends, the whole match of the
second kind of engine and the search of the first kind accept the same texts.

## Main definitions
* `Regex` : characters, concatenation, bounded repetition, `^` and `$`.
* `Regex.rests` : the positions after a match.
* `Regex.fullmatch`, `Regex.search` : the two calls.
-/

/-- Regular expressions; `upTo n r` is `r{0,n}`. -/
inductive Regex
  | start
  | finish
  | set (accepts : Char → Bool)
  | seq (r s : Regex)
  | upTo (n : ℕ) (r : Regex)

namespace Regex

/-- A position in a text: whether it is the first, and what follows. -/
structure Position where
  first : Bool
  rest : List Char
deriving DecidableEq

/-- `$` matches at the end alone. -/
def strictEnd (rest : List Char) : Bool := rest.isEmpty

/-- `$` matches at the end, and before a newline that ends the text. -/
def newlineEnd (rest : List Char) : Bool := rest.isEmpty || rest == ['\n']

/-- At most `n` steps, as many as possible first. -/
def iterate (step : Position → List Position) : ℕ → Position → List Position
  | 0, p => [p]
  | n + 1, p => (step p).flatMap (iterate step n) ++ [p]

/-- The positions after a match that begins at a position. -/
def rests (atEnd : List Char → Bool) : Regex → Position → List Position
  | .start, p => if p.first then [p] else []
  | .finish, p => if atEnd p.rest then [p] else []
  | .set accepts, p =>
      match p.rest with
      | [] => []
      | c :: cs => if accepts c then [⟨false, cs⟩] else []
  | .seq r s, p => (r.rests atEnd p).flatMap (s.rests atEnd)
  | .upTo n r, p => iterate (r.rests atEnd) n p

/-- The whole text matches. -/
def fullmatch (atEnd : List Char → Bool) (r : Regex) (s : String) : Bool :=
  (r.rests atEnd ⟨true, s.toList⟩).any fun p => p.rest.isEmpty

/-- The positions of a text. -/
def positions (cs : List Char) : List Position :=
  ⟨true, cs⟩ :: (cs.tails.tail.map fun rest => ⟨false, rest⟩)

/-- Some part of the text matches. -/
def search (atEnd : List Char → Bool) (r : Regex) (s : String) : Bool :=
  (positions s.toList).any fun p => !(r.rests atEnd p).isEmpty

/-! ## Anchors -/

/-- No anchor stands in the expression. -/
def AnchorFree : Regex → Prop
  | .start | .finish => False
  | .set _ => True
  | .seq r s => r.AnchorFree ∧ s.AnchorFree
  | .upTo _ r => r.AnchorFree

/-- `^r$`. -/
def anchored (r : Regex) : Regex := .seq .start (.seq r .finish)

section Anchors
variable {atEnd atEnd' : List Char → Bool} {r : Regex} {p q : Position} {s : String}

theorem mem_rests_anchored :
    q ∈ (anchored r).rests atEnd p ↔
      p.first = true ∧ q ∈ r.rests atEnd p ∧ atEnd q.rest = true := by
  cases hfirst : p.first with
  | false => simp [anchored, rests, hfirst]
  | true =>
      simp only [anchored, rests, hfirst, if_true, List.mem_flatMap, List.mem_singleton,
        exists_eq_left, true_and]
      constructor
      · rintro ⟨q', hq', hq⟩
        split at hq
        · rw [List.mem_singleton.mp hq]
          exact ⟨hq', ‹_›⟩
        · cases hq
      · rintro ⟨hq, hend⟩
        exact ⟨q, hq, by rw [if_pos hend]; exact List.mem_singleton_self q⟩

/-- Where `$` matches is of no consequence to an expression without anchors. -/
theorem AnchorFree.rests_eq (h : r.AnchorFree) : r.rests atEnd = r.rests atEnd' := by
  induction r with
  | start => exact h.elim
  | finish => exact h.elim
  | set accepts => rfl
  | seq r s ihr ihs =>
      funext p
      simp only [rests, ihr h.1, ihs h.2]
  | upTo n r ih =>
      funext p
      simp only [rests, ih h]

/-- Anchors add nothing to a match of the whole text. -/
theorem fullmatch_anchored (hend : atEnd [] = true) :
    (anchored r).fullmatch atEnd s = r.fullmatch atEnd s := by
  rw [Bool.eq_iff_iff]
  simp only [fullmatch, List.any_eq_true, mem_rests_anchored, List.isEmpty_iff, true_and]
  constructor
  · rintro ⟨q, ⟨hq, -⟩, hrest⟩
    exact ⟨q, hq, hrest⟩
  · rintro ⟨q, hq, hrest⟩
    exact ⟨q, ⟨hq, by rw [hrest, hend]⟩, hrest⟩

/-- A search of an anchored expression matches from the first position to the end. -/
theorem search_anchored :
    (anchored r).search strictEnd s = r.fullmatch strictEnd s := by
  rw [Bool.eq_iff_iff]
  simp only [search, fullmatch, List.any_eq_true, Bool.not_eq_true',
    List.isEmpty_eq_false_iff_exists_mem, mem_rests_anchored, List.isEmpty_iff]
  constructor
  · rintro ⟨p, hp, q, hfirst, hq, hend⟩
    rcases List.mem_cons.mp hp with rfl | hlater
    · exact ⟨q, hq, List.isEmpty_iff.mp hend⟩
    · obtain ⟨rest, -, rfl⟩ := List.mem_map.mp hlater
      cases hfirst
  · rintro ⟨q, hq, hrest⟩
    exact ⟨⟨true, s.toList⟩, List.mem_cons_self, q, rfl, hq, List.isEmpty_iff.mpr hrest⟩

/-- The two kinds of engines accept the same texts, each by its own call. -/
theorem AnchorFree.fullmatch_eq_search (h : r.AnchorFree) :
    (anchored r).fullmatch newlineEnd s = (anchored r).search strictEnd s := by
  have hrests : r.rests newlineEnd = r.rests strictEnd := h.rests_eq
  rw [fullmatch_anchored rfl, search_anchored, fullmatch, fullmatch, hrests]

end Anchors

/-! ## Repeated characters -/

section Characters
variable {atEnd : List Char → Bool} {accepts : Char → Bool} {p : Position} {n : ℕ}

theorem exists_rests_set {P : Position → Prop} :
    (∃ q ∈ (set accepts).rests atEnd p, P q) ↔
      ∃ c cs, p.rest = c :: cs ∧ accepts c = true ∧ P ⟨false, cs⟩ := by
  obtain ⟨first, rest⟩ := p
  cases rest with
  | nil => simp [rests]
  | cons c cs => cases hc : accepts c <;> simp [rests, hc]

/-- Repeating a character set reaches the end exactly from a short text of such characters. -/
theorem exists_iterate_set :
    (∃ q ∈ iterate ((set accepts).rests atEnd) n p, q.rest = []) ↔
      p.rest.length ≤ n ∧ p.rest.all accepts = true := by
  induction n generalizing p with
  | zero =>
      simp only [iterate, List.mem_singleton, exists_eq_left, Nat.le_zero,
        List.length_eq_zero_iff, iff_self_and]
      intro hrest
      rw [hrest, List.all_nil]
  | succ n ih =>
      have hsplit : (∃ q ∈ iterate ((set accepts).rests atEnd) (n + 1) p, q.rest = []) ↔
          (∃ q ∈ (set accepts).rests atEnd p,
            ∃ q' ∈ iterate ((set accepts).rests atEnd) n q, q'.rest = []) ∨ p.rest = [] := by
        simp only [iterate, List.mem_append, List.mem_flatMap, List.mem_singleton]
        grind
      rw [hsplit, exists_rests_set]
      cases hrest : p.rest with
      | nil => simp
      | cons c cs =>
          simp only [List.cons.injEq, reduceCtorEq, or_false, List.length_cons, List.all_cons,
            Bool.and_eq_true]
          constructor
          · rintro ⟨_, _, ⟨rfl, rfl⟩, hc, hrests⟩
            obtain ⟨hlength, hall⟩ := ih.mp hrests
            exact ⟨by simpa using hlength, hc, hall⟩
          · rintro ⟨hlength, hc, hall⟩
            exact ⟨c, cs, ⟨rfl, rfl⟩, hc, ih.mpr ⟨by simpa using hlength, hall⟩⟩

/-- A character and then at most `n` characters. -/
theorem fullmatch_word {head tail : Char → Bool} {s : String} :
    (seq (set head) (upTo n (set tail))).fullmatch atEnd s = true ↔
      ∃ c cs, s.toList = c :: cs ∧ head c = true ∧ cs.length ≤ n ∧ cs.all tail = true := by
  have hword : (seq (set head) (upTo n (set tail))).fullmatch atEnd s = true ↔
      ∃ q ∈ (set head).rests atEnd ⟨true, s.toList⟩,
        ∃ q' ∈ iterate ((set tail).rests atEnd) n q, q'.rest = [] := by
    simp only [fullmatch, List.any_eq_true, rests, List.mem_flatMap, List.isEmpty_iff]
    grind
  rw [hword, exists_rests_set]
  simp only [exists_iterate_set]

end Characters

end Regex
