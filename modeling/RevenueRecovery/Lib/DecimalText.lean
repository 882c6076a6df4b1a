import Mathlib.Algebra.Field.Rat
import Mathlib.Data.List.TakeWhile
import Mathlib.Data.Nat.Cast.Defs
import Mathlib.Tactic.FieldSimp

/-!
# Decimals as text

An unsigned decimal is written as a whole part without leading zeros and, if it has any,
a point and fraction digits. Scaled by a power of ten at least as large as the fraction is
long, it is a natural number; a natural number is written with a fixed number of fraction
digits by padding them.

## Main definitions
* `IsWhole`, `AllDigits` : the parts of a decimal.
* `render`, `value` : its text and the number it denotes.
* `fixed` : a number of units written with a fixed number of fraction digits.
-/
namespace DecimalText

/-- Decimal digits only. -/
def AllDigits (cs : List Char) : Prop := ∀ c ∈ cs, c.isDigit = true

/-- `0`, or digits the first of which is not zero. -/
def IsWhole (whole : List Char) : Prop :=
  AllDigits whole ∧ (whole = ['0'] ∨ ∃ c rest, whole = c :: rest ∧ c ≠ '0')

/-- The whole part, and a point and the fraction digits if there are any. -/
def render (whole fraction : List Char) : List Char :=
  if fraction = [] then whole else whole ++ '.' :: fraction

/-- The number that the parts denote. -/
def value (whole fraction : List Char) : ℚ :=
  Nat.ofDigitChars 10 whole 0 + Nat.ofDigitChars 10 fraction 0 / 10 ^ fraction.length

variable {whole fraction : List Char} {e n : ℕ}

/-! ## The parts of a text -/

/-- A decimal has no other characters than digits and the point. -/
theorem mem_render (hwhole : IsWhole whole) (hfraction : AllDigits fraction) {c : Char}
    (hc : c ∈ render whole fraction) : c.isDigit = true ∨ c = '.' := by
  unfold render at hc
  split at hc
  · exact .inl (hwhole.1 c hc)
  · rcases List.mem_append.mp hc with hc | hc
    · exact .inl (hwhole.1 c hc)
    · rcases List.mem_cons.mp hc with rfl | hc
      · exact .inr rfl
      · exact .inl (hfraction c hc)

theorem length_render_le (whole fraction : List Char) :
    (render whole fraction).length ≤ whole.length + 1 + fraction.length := by
  unfold render
  split
  · omega
  · simp only [List.length_append, List.length_cons]
    omega

/-- The leading digits of a decimal are its whole part. -/
theorem takeWhile_render (hwhole : IsWhole whole) :
    (render whole fraction).takeWhile Char.isDigit = whole := by
  have hself : whole.takeWhile Char.isDigit = whole := List.takeWhile_eq_self_iff.mpr hwhole.1
  unfold render
  split
  · exact hself
  · rw [List.takeWhile_append_of_pos hwhole.1]
    simp

theorem dropWhile_render (hwhole : IsWhole whole) :
    (render whole fraction).dropWhile Char.isDigit =
      if fraction = [] then [] else '.' :: fraction := by
  unfold render
  split
  · exact List.dropWhile_eq_nil_iff.mpr hwhole.1
  · rw [List.dropWhile_append_of_pos hwhole.1]
    simp

/-! ## Numbers of units -/

/-- A decimal scaled by enough powers of ten is the number of all its digits, with zeros. -/
theorem value_mul_pow (h : fraction.length ≤ e) :
    value whole fraction * 10 ^ e =
      (Nat.ofDigitChars 10 (whole ++ fraction) 0 * 10 ^ (e - fraction.length) : ℕ) := by
  have hsplit : (10 : ℚ) ^ e = 10 ^ fraction.length * 10 ^ (e - fraction.length) := by
    rw [← pow_add, Nat.add_sub_cancel' h]
  rw [Nat.ofDigitChars_append, Nat.ofDigitChars_eq_ofDigitChars_zero, value, hsplit]
  push_cast
  field_simp

/-- The digits of a number, with leading zeros to a length. -/
def padded (length n : ℕ) : List Char :=
  List.replicate (length - (Nat.toDigits 10 n).length) '0' ++ Nat.toDigits 10 n

/-- A number of units of `10 ^ -e`, written with `e` fraction digits. -/
def fixed (e n : ℕ) : List Char :=
  render (Nat.toDigits 10 (n / 10 ^ e)) (if e = 0 then [] else padded e (n % 10 ^ e))

theorem allDigits_toDigits (n : ℕ) : AllDigits (Nat.toDigits 10 n) :=
  fun _ hc => Nat.isDigit_of_mem_toDigits (by decide) (by decide) hc

/-- The digits of a positive number start with another digit than zero. -/
theorem toDigits_head (hn : 0 < n) : ∃ c rest, Nat.toDigits 10 n = c :: rest ∧ c ≠ '0' := by
  induction n using Nat.strong_induction_on with
  | _ n ih =>
      rw [Nat.toDigits_eq_if (by decide)]
      split
      · exact ⟨_, [], rfl, fun h => absurd (Nat.digitChar_eq_zero.mp h) (by omega)⟩
      · obtain ⟨c, rest, heq, hc⟩ := ih (n / 10) (by omega) (by omega)
        exact ⟨c, rest ++ [(n % 10).digitChar], by rw [heq, List.cons_append], hc⟩

theorem isWhole_toDigits (n : ℕ) : IsWhole (Nat.toDigits 10 n) := by
  refine ⟨allDigits_toDigits n, ?_⟩
  rcases Nat.eq_zero_or_pos n with rfl | hn
  · exact .inl rfl
  · exact .inr (toDigits_head hn)

theorem allDigits_padded (length n : ℕ) : AllDigits (padded length n) := by
  intro c hc
  rcases List.mem_append.mp hc with hc | hc
  · rw [(List.mem_replicate.mp hc).2]
    rfl
  · exact allDigits_toDigits n c hc

theorem length_padded {length : ℕ} (hpos : 0 < length) (hn : n < 10 ^ length) :
    (padded length n).length = length := by
  have hle := (Nat.length_toDigits_le_iff (by decide : 1 < 10) hpos).mpr hn
  rw [padded, List.length_append, List.length_replicate]
  omega

theorem ofDigitChars_padded (length n : ℕ) : Nat.ofDigitChars 10 (padded length n) 0 = n := by
  rw [padded, Nat.ofDigitChars_append, Nat.ofDigitChars_replicate_zero, Nat.mul_zero,
    Nat.ofDigitChars_ten_toDigits]

/-- A number of units is written as a decimal of that many units. -/
theorem fixed_spec (e n : ℕ) : ∃ whole fraction, IsWhole whole ∧ AllDigits fraction ∧
    fraction.length = e ∧ fixed e n = render whole fraction ∧
    (n : ℚ) = value whole fraction * 10 ^ e := by
  have hmod : n % 10 ^ e < 10 ^ e := Nat.mod_lt _ (Nat.pow_pos (by decide))
  rcases Nat.eq_zero_or_pos e with rfl | hpos
  · refine ⟨Nat.toDigits 10 n, [], isWhole_toDigits n, by simp [AllDigits], rfl, ?_, ?_⟩
    · simp [fixed]
    · rw [value_mul_pow (Nat.le_refl 0)]
      simp
  · have hlength := length_padded hpos hmod
    refine ⟨_, padded e (n % 10 ^ e), isWhole_toDigits (n / 10 ^ e), allDigits_padded _ _, hlength,
      ?_, ?_⟩
    · rw [fixed, if_neg (by omega)]
    · rw [value_mul_pow hlength.le, hlength, Nat.sub_self, pow_zero, Nat.mul_one,
        Nat.ofDigitChars_append, Nat.ofDigitChars_ten_toDigits,
        Nat.ofDigitChars_eq_ofDigitChars_zero, hlength, ofDigitChars_padded,
        Nat.div_add_mod]

theorem length_fixed_le {k : ℕ} (hk : 0 < k) (hn : n < 10 ^ k) :
    (fixed e n).length ≤ k + 1 + e := by
  have hwhole : (Nat.toDigits 10 (n / 10 ^ e)).length ≤ k :=
    (Nat.length_toDigits_le_iff (by decide) hk).mpr
      (Nat.lt_of_le_of_lt (Nat.div_le_self n _) hn)
  have hfraction : (if e = 0 then [] else padded e (n % 10 ^ e)).length = e := by
    split
    · simp [*]
    · exact length_padded (by omega) (Nat.mod_lt _ (Nat.pow_pos (by decide)))
  have := length_render_le (Nat.toDigits 10 (n / 10 ^ e))
    (if e = 0 then [] else padded e (n % 10 ^ e))
  rw [fixed]
  omega

end DecimalText
