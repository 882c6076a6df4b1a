import Mathlib.Data.List.DropRight
import Mathlib.Data.List.Infix

/-!
# Streaks of a word

A streak is a stretch of consecutive letters of a word that all satisfy a predicate. An
automaton that waits for `n` such letters in a row knows the word by its trailing streak:
the first streak of length `n` is complete exactly when the trailing one reaches `n`.

## Main definitions
* `Streak.Has` : the word has a streak of a given length.
* `Streak.IsFirst` : a streak of a given length with none complete before its end.
-/
namespace Streak

variable {α : Type*} {p : α → Bool} {n : ℕ} {w before streak : List α} {a : α}

/-- Some `n` consecutive letters of the word satisfy `p`. -/
def Has (p : α → Bool) (n : ℕ) (w : List α) : Prop :=
  ∃ streak, streak <:+: w ∧ streak.length = n ∧ ∀ a ∈ streak, p a

/-- The `n` letters satisfying `p` that follow `before` complete the first such streak. -/
structure IsFirst (p : α → Bool) (n : ℕ) (before streak : List α) : Prop where
  length_eq : streak.length = n
  all : ∀ a ∈ streak, p a
  none_before : ¬ Has p n (before ++ streak.dropLast)

theorem Has.mono {w' : List α} (h : Has p n w) (hw : w <:+: w') : Has p n w' := by
  obtain ⟨streak, hstreak, hlength, hall⟩ := h
  exact ⟨streak, hstreak.trans hw, hlength, hall⟩

/-- A suffix of letters satisfying `p` lies in the trailing streak. -/
theorem suffix_rtakeWhile (hsuffix : streak <:+ w) (hall : ∀ a ∈ streak, p a) :
    streak <:+ w.rtakeWhile p := by
  rw [← List.reverse_prefix, List.rtakeWhile, List.reverse_reverse]
  have hrev : streak.reverse <+: w.reverse := List.reverse_prefix.mpr hsuffix
  obtain ⟨rest, hrest⟩ := hrev
  rw [← hrest, List.takeWhile_append_of_pos (by simpa using hall)]
  exact List.prefix_append _ _

/-- The trailing streak of a word without a streak of length `n` is shorter. -/
theorem length_rtakeWhile_lt (h : ¬ Has p n w) : (w.rtakeWhile p).length < n := by
  by_contra hle
  have hle : n ≤ (w.rtakeWhile p).length := Nat.le_of_not_lt hle
  refine h ⟨(w.rtakeWhile p).drop ((w.rtakeWhile p).length - n), ?_, ?_, ?_⟩
  · exact ((List.drop_suffix _ _).trans (List.rtakeWhile_suffix p w)).isInfix
  · rw [List.length_drop]
    omega
  · intro a ha
    exact List.mem_rtakeWhile_imp (List.mem_of_mem_drop ha)

/-- A further letter completes a streak exactly when the trailing one is long enough. -/
theorem has_concat : Has p n (w ++ [a]) ↔
    Has p n w ∨ n ≤ ((w ++ [a]).rtakeWhile p).length := by
  constructor
  · rintro ⟨streak, hinfix, rfl, hall⟩
    rcases List.infix_concat_iff.mp hinfix with hsuffix | hinfix
    · exact .inr (suffix_rtakeWhile hsuffix hall).length_le
    · exact .inl ⟨streak, hinfix, rfl, hall⟩
  · rintro (h | hle)
    · exact h.mono (List.prefix_append _ _).isInfix
    · by_contra h
      exact absurd (length_rtakeWhile_lt h) (Nat.not_lt.mpr hle)

/-- Just before the first streak is complete, the trailing streak is what there is of it. -/
theorem IsFirst.rtakeWhile_eq (h : IsFirst p (n + 1) before streak) :
    (before ++ streak.dropLast).rtakeWhile p = streak.dropLast := by
  have hlength : streak.dropLast.length = n := by
    rw [List.length_dropLast, h.length_eq, Nat.add_sub_cancel]
  have hsuffix : streak.dropLast <:+ (before ++ streak.dropLast).rtakeWhile p :=
    suffix_rtakeWhile (List.suffix_append _ _) fun a ha => h.all a (List.mem_of_mem_dropLast ha)
  have hlt := length_rtakeWhile_lt h.none_before
  exact (hsuffix.eq_of_length_le (by omega)).symm

/-- A word with a streak has a first one. -/
theorem Has.exists_isFirst (h : Has p (n + 1) w) :
    ∃ before streak after, w = before ++ streak ++ after ∧ IsFirst p (n + 1) before streak := by
  induction w using List.reverseRecOn with
  | nil =>
      obtain ⟨streak, hinfix, hlength, -⟩ := h
      simp [List.infix_nil.mp hinfix] at hlength
  | append_singleton w a ih =>
      by_cases hw : Has p (n + 1) w
      · obtain ⟨before, streak, after, rfl, hfirst⟩ := ih hw
        exact ⟨before, streak, after ++ [a], by simp, hfirst⟩
      · have hle := (has_concat.mp h).resolve_left hw
        have hlt := length_rtakeWhile_lt hw
        have ha : p a := by
          by_contra ha
          simp [List.rtakeWhile_concat_neg p w a ha] at hle
        have htrail := List.rtakeWhile_concat_pos p w a ha
        refine ⟨w.rdropWhile p, w.rtakeWhile p ++ [a], [], ?_, ?_, ?_, ?_⟩
        · rw [List.append_nil, ← List.append_assoc, List.rdropWhile_append_rtakeWhile]
        · rw [htrail, List.length_append, List.length_singleton] at hle
          rw [List.length_append, List.length_singleton]
          omega
        · intro b hb
          rcases List.mem_append.mp hb with hb | hb
          · exact List.mem_rtakeWhile_imp hb
          · exact List.mem_singleton.mp hb ▸ ha
        · rwa [List.dropLast_concat, List.rdropWhile_append_rtakeWhile]

end Streak
