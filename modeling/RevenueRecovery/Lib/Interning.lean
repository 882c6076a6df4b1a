import Mathlib.Data.List.Nodup
import Mathlib.Data.List.Range

/-!
# Codes for keys in the order of their appearance

A table of codes gives each new key the next number, so that keys have different codes, and
a key keeps its code whatever comes later.

## Main definitions
* `Codes` : a table of codes, numbered in the order of insertion.
* `Codes.intern`, `Codes.internAll` : add a key, unless it is there, or a list of keys.
* `Codes.code` : the code of a key.
-/
namespace Interning

variable {κ : Type} [DecidableEq κ]

/-- Keys with their codes. -/
structure Codes (κ : Type) where
  entries : List (κ × ℕ)
  nodup : (entries.map Prod.fst).Nodup
  numbered : entries.map Prod.snd = List.range entries.length

namespace Codes

def empty : Codes κ := ⟨[], List.nodup_nil, rfl⟩

/-- The code of a key, when it has one. -/
def code (codes : Codes κ) (k : κ) : Option ℕ := codes.entries.lookup k

theorem code_eq_none_iff {codes : Codes κ} {k : κ} :
    codes.code k = none ↔ k ∉ codes.entries.map Prod.fst := by
  rw [code, List.lookup_eq_none_iff, List.mem_map, not_exists]
  constructor
  · rintro h entry ⟨hentry, rfl⟩
    simpa using h entry hentry
  · intro h entry hentry
    have hne : k ≠ entry.1 := fun heq => h entry ⟨hentry, heq.symm⟩
    simpa using hne

/-- A new key gets the next number. -/
def intern (codes : Codes κ) (k : κ) : Codes κ :=
  if h : codes.code k = none then
    { entries := codes.entries ++ [(k, codes.entries.length)]
      nodup := by
        rw [List.map_append, List.nodup_append]
        refine ⟨codes.nodup, List.nodup_singleton _, ?_⟩
        rintro a ha b hb rfl
        obtain rfl := List.mem_singleton.mp hb
        exact code_eq_none_iff.mp h ha
      numbered := by
        rw [List.map_append, codes.numbered, List.length_append, List.length_singleton,
          List.range_succ]
        rfl }
  else codes

def internAll (codes : Codes κ) (ks : List κ) : Codes κ := ks.foldl intern codes

@[simp] theorem internAll_nil (codes : Codes κ) : codes.internAll [] = codes := rfl

@[simp] theorem internAll_cons (codes : Codes κ) (k : κ) (ks : List κ) :
    codes.internAll (k :: ks) = (codes.intern k).internAll ks := rfl

theorem internAll_append (codes : Codes κ) (ks ls : List κ) :
    codes.internAll (ks ++ ls) = (codes.internAll ks).internAll ls := List.foldl_append

/-! ## Codes of keys -/

theorem entry_of_code {codes : Codes κ} {k : κ} {n : ℕ} (h : codes.code k = some n) :
    (k, n) ∈ codes.entries := by
  obtain ⟨before, after, heq, -⟩ := List.lookup_eq_some_iff.mp h
  rw [heq]
  exact List.mem_append_right _ List.mem_cons_self

/-- Codes are numbered from `0`. -/
theorem code_lt {codes : Codes κ} {k : κ} {n : ℕ} (h : codes.code k = some n) :
    n < codes.entries.length := by
  have hmem : n ∈ codes.entries.map Prod.snd := List.mem_map_of_mem (entry_of_code h)
  rwa [codes.numbered, List.mem_range] at hmem

/-- Two keys with one code are one key. -/
theorem code_injective {codes : Codes κ} {k l : κ} {n : ℕ} (hk : codes.code k = some n)
    (hl : codes.code l = some n) : k = l := by
  have hnodup : (codes.entries.map Prod.snd).Nodup := by
    rw [codes.numbered]
    exact List.nodup_range
  have heq := List.inj_on_of_nodup_map hnodup (entry_of_code hk) (entry_of_code hl) rfl
  exact (Prod.mk.inj heq).1

/-- A key keeps its code. -/
theorem code_intern_of_some {codes : Codes κ} {k l : κ} {n : ℕ} (h : codes.code l = some n) :
    (codes.intern k).code l = some n := by
  unfold intern
  split
  · rw [code, List.lookup_append]
    change (codes.code l).or _ = some n
    rw [h]
    rfl
  · exact h

theorem code_intern_self (codes : Codes κ) (k : κ) : ((codes.intern k).code k).isSome := by
  unfold intern
  split
  · next hnone =>
      rw [code, List.lookup_append]
      change ((codes.code k).or _).isSome
      simp [hnone]
  · next hsome => exact Option.isSome_iff_ne_none.mpr hsome

theorem code_intern_of_ne {codes : Codes κ} {k l : κ} (h : l ≠ k) :
    (codes.intern k).code l = codes.code l := by
  unfold intern
  split
  · rw [code, List.lookup_append]
    change (codes.code l).or _ = codes.code l
    have hne : (l == k) = false := beq_eq_false_iff_ne.mpr h
    rw [List.lookup_cons, hne]
    exact Option.or_none
  · rfl

theorem code_internAll_of_some {codes : Codes κ} {ks : List κ} {l : κ} {n : ℕ}
    (h : codes.code l = some n) : (codes.internAll ks).code l = some n := by
  induction ks generalizing codes with
  | nil => exact h
  | cons k ks ih => exact ih (code_intern_of_some h)

theorem code_internAll_of_notMem {codes : Codes κ} {ks : List κ} {l : κ} (h : l ∉ ks) :
    (codes.internAll ks).code l = codes.code l := by
  induction ks generalizing codes with
  | nil => rfl
  | cons k ks ih =>
      obtain ⟨hne, hks⟩ := not_or.mp (List.mem_cons.not.mp h)
      rw [internAll_cons, ih hks, code_intern_of_ne hne]

theorem code_internAll_isSome (codes : Codes κ) {ks : List κ} {l : κ} (h : l ∈ ks) :
    ((codes.internAll ks).code l).isSome := by
  induction ks generalizing codes with
  | nil => cases h
  | cons k ks ih =>
      rcases List.mem_cons.mp h with rfl | h
      · obtain ⟨n, hn⟩ := Option.isSome_iff_exists.mp (code_intern_self codes l)
        rw [internAll_cons, code_internAll_of_some hn]
        rfl
      · exact ih (codes.intern k) h

@[simp] theorem code_empty (k : κ) : (empty : Codes κ).code k = none := rfl

/-- The first key has code `0`. -/
theorem code_internAll_first (k : κ) (ks : List κ) :
    ((empty : Codes κ).internAll (k :: ks)).code k = some 0 := by
  have hfirst : ((empty : Codes κ).intern k).code k = some 0 := by
    unfold intern
    rw [dif_pos (code_empty k), code]
    simp [empty]
  rw [internAll_cons]
  exact code_internAll_of_some hfirst

theorem length_intern_le (codes : Codes κ) (k : κ) :
    (codes.intern k).entries.length ≤ codes.entries.length + 1 := by
  unfold intern
  split
  · exact (List.length_append).le
  · exact Nat.le_succ _

theorem length_internAll_le (codes : Codes κ) (ks : List κ) :
    (codes.internAll ks).entries.length ≤ codes.entries.length + ks.length := by
  induction ks generalizing codes with
  | nil => exact Nat.le_refl _
  | cons k ks ih =>
      have hstep := codes.length_intern_le k
      have hrest := ih (codes.intern k)
      rw [internAll_cons, List.length_cons]
      omega

/-- What comes later matters only to keys that first appear there. -/
theorem code_internAll_append (codes : Codes κ) {ks ls ls' : List κ} {k : κ}
    (h : k ∈ ks ∨ (k ∉ ls ∧ k ∉ ls')) :
    (codes.internAll (ks ++ ls)).code k = (codes.internAll (ks ++ ls')).code k := by
  rw [internAll_append, internAll_append]
  rcases h with h | ⟨h, h'⟩
  · obtain ⟨n, hn⟩ := Option.isSome_iff_exists.mp (codes.code_internAll_isSome h)
    rw [code_internAll_of_some hn, code_internAll_of_some hn]
  · rw [code_internAll_of_notMem h, code_internAll_of_notMem h']

end Codes

end Interning
