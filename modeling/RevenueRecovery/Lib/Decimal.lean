import Mathlib.Algebra.Order.Field.Power
import Mathlib.Algebra.Order.Field.Rat
import Mathlib.Data.Nat.Log
import Mathlib.Data.Rat.Floor

/-!
# Decimal arithmetic

Half-even rounding, and decimal numbers computed with in a context that keeps a fixed
number of significant digits: a product with more digits is rounded, a quantization that
would need more digits fails.

## Main definitions
* `halfEven` : the nearest integer, ties to the even one.
* `quantize` : the nearest decimal with a given number of places.
* `Number` : a coefficient and a power of ten.
* `Number.mul`, `Number.quantize` : the operations of a context.
-/
namespace Decimal

/-- The integer nearest to `x`; of two equally near ones, the even one. -/
def halfEven (x : ℚ) : ℤ :=
  let low := x.floor
  let rest := x - low
  if rest < 1 / 2 then low
  else if 1 / 2 < rest then low + 1
  else if low % 2 = 0 then low
  else low + 1

/-- The nearest decimal with `places` digits after the point. -/
def quantize (places : ℕ) (x : ℚ) : ℚ := halfEven (x * 10 ^ places) / 10 ^ places

/-! ## Rounding -/

theorem floor_le_halfEven (x : ℚ) : x.floor ≤ halfEven x := by
  unfold halfEven
  dsimp only
  split_ifs <;> omega

theorem halfEven_le_floor_succ (x : ℚ) : halfEven x ≤ x.floor + 1 := by
  unfold halfEven
  dsimp only
  split_ifs <;> omega

@[simp] theorem halfEven_intCast (n : ℤ) : halfEven n = n := by
  simp [halfEven, Rat.floor_intCast]

theorem halfEven_mono {x y : ℚ} (h : x ≤ y) : halfEven x ≤ halfEven y := by
  have hfloor : x.floor ≤ y.floor := Rat.floor_monotone h
  rcases hfloor.lt_or_eq with hlt | heq
  · exact (halfEven_le_floor_succ x).trans
      ((Int.add_one_le_of_lt hlt).trans (floor_le_halfEven y))
  · have hrest : x - x.floor ≤ y - y.floor := by
      rw [heq]
      exact sub_le_sub_right h _
    unfold halfEven
    dsimp only
    split_ifs <;> first | omega | linarith

theorem halfEven_nonneg {x : ℚ} (h : 0 ≤ x) : 0 ≤ halfEven x := by
  have hmono := halfEven_mono h
  rwa [← Int.cast_zero, halfEven_intCast] at hmono

theorem halfEven_le {x : ℚ} {n : ℤ} (h : x ≤ n) : halfEven x ≤ n := by
  simpa using halfEven_mono h

/-! ## Numbers in a context -/

/-- A finite decimal: `coefficient * 10 ^ exponent`. -/
structure Number where
  coefficient : ℤ
  exponent : ℤ
deriving DecidableEq, Repr

namespace Number

def value (d : Number) : ℚ := d.coefficient * 10 ^ d.exponent

/-- The number with at most `precision` significant digits, rounded half-even. -/
def fix (precision : ℕ) (d : Number) : Number :=
  if d.coefficient.natAbs < 10 ^ precision then d
  else
    let excess := Nat.log 10 d.coefficient.natAbs + 1 - precision
    let rounded := halfEven (d.coefficient / 10 ^ excess)
    if rounded.natAbs < 10 ^ precision then ⟨rounded, d.exponent + excess⟩
    -- rounding up to a power of ten gave one digit too many
    else ⟨rounded / 10, d.exponent + excess + 1⟩

def mul (precision : ℕ) (a b : Number) : Number :=
  fix precision ⟨a.coefficient * b.coefficient, a.exponent + b.exponent⟩

/-- The number rounded half-even to an exponent; nothing when the coefficient would need
more digits than the context has. -/
def quantize (precision : ℕ) (exponent : ℤ) (d : Number) : Option Number :=
  let coefficient := halfEven (d.value / 10 ^ exponent)
  if coefficient.natAbs < 10 ^ precision then some ⟨coefficient, exponent⟩ else none

/-- The integer part. -/
def toInt (d : Number) : ℤ := if 0 ≤ d.value then d.value.floor else d.value.ceil

/-- A product that fits the context is exact. -/
theorem mul_eq {precision : ℕ} {a b : Number}
    (h : (a.coefficient * b.coefficient).natAbs < 10 ^ precision) :
    mul precision a b = ⟨a.coefficient * b.coefficient, a.exponent + b.exponent⟩ := if_pos h

theorem value_mk_mul (c d : ℤ) (e f : ℤ) :
    (⟨c * d, e + f⟩ : Number).value = (⟨c, e⟩ : Number).value * (⟨d, f⟩ : Number).value := by
  simp only [value, Int.cast_mul, zpow_add₀ (by norm_num : (10 : ℚ) ≠ 0)]
  ring

theorem value_zero_exponent (c : ℤ) : (⟨c, 0⟩ : Number).value = c := by simp [value]

@[simp] theorem toInt_zero_exponent (c : ℤ) : (⟨c, 0⟩ : Number).toInt = c := by
  unfold toInt
  rw [value_zero_exponent]
  split <;> simp

/-- Quantizing to places after the point agrees with rounding the value, as long as the
result fits the context. -/
theorem quantize_places {precision : ℕ} (places : ℕ) {d : Number}
    (h : (halfEven (d.value * 10 ^ places)).natAbs < 10 ^ precision) :
    d.quantize precision (-places) = some ⟨halfEven (d.value * 10 ^ places), -places⟩ := by
  have heq : d.value / 10 ^ (-(places : ℤ)) = d.value * 10 ^ places := by
    rw [zpow_neg, div_inv_eq_mul, zpow_natCast]
  simp only [quantize, heq, if_pos h]

theorem value_neg_places (places : ℕ) (x : ℚ) :
    (⟨halfEven (x * 10 ^ places), -places⟩ : Number).value = Decimal.quantize places x := by
  simp only [value, Decimal.quantize, zpow_neg, zpow_natCast, div_eq_mul_inv]

end Number

end Decimal
