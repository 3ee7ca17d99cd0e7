import Mathlib.Data.Rat.Floor
import Mathlib.Tactic.Linarith

/-!
# Rounding half to even

Python's `round`: the nearest integer, and the even one of two that are equally near.
-/

namespace Swarm.Lib

/-- Python's `round` to a whole number: a half goes to the even neighbour. -/
def roundHalfEven (q : ℚ) : ℤ :=
  if q - ⌊q⌋ < 1 / 2 then ⌊q⌋
  else if 1 / 2 < q - ⌊q⌋ then ⌊q⌋ + 1
  else if ⌊q⌋ % 2 = 0 then ⌊q⌋ else ⌊q⌋ + 1

/-- `round(q, digits)`. -/
def roundTo (digits : Nat) (q : ℚ) : ℚ := roundHalfEven (q * 10 ^ digits) / 10 ^ digits

theorem floor_le_roundHalfEven (q : ℚ) : ⌊q⌋ ≤ roundHalfEven q := by
  unfold roundHalfEven
  split_ifs <;> omega

theorem roundHalfEven_le_floor_add_one (q : ℚ) : roundHalfEven q ≤ ⌊q⌋ + 1 := by
  unfold roundHalfEven
  split_ifs <;> omega

theorem roundHalfEven_mono {p q : ℚ} (h : p ≤ q) : roundHalfEven p ≤ roundHalfEven q := by
  rcases (Int.floor_mono h).lt_or_eq with hlt | heq
  · calc roundHalfEven p ≤ ⌊p⌋ + 1 := roundHalfEven_le_floor_add_one p
      _ ≤ ⌊q⌋ := hlt
      _ ≤ roundHalfEven q := floor_le_roundHalfEven q
  · -- Over one floor only the fractions differ.
    simp only [roundHalfEven, heq]
    split_ifs <;> first | omega | (exfalso; linarith)

theorem abs_roundHalfEven_sub_le (q : ℚ) : |(roundHalfEven q : ℚ) - q| ≤ 1 / 2 := by
  have hlow : (⌊q⌋ : ℚ) ≤ q := Int.floor_le q
  have hhigh : q < ⌊q⌋ + 1 := Int.lt_floor_add_one q
  unfold roundHalfEven
  rw [abs_le]
  split_ifs <;> push_cast <;> constructor <;> linarith

@[simp] theorem roundHalfEven_intCast (n : ℤ) : roundHalfEven (n : ℚ) = n := by simp [roundHalfEven]

theorem abs_roundTo_sub_le (digits : Nat) (q : ℚ) :
    |roundTo digits q - q| ≤ 1 / 2 / 10 ^ digits := by
  have hpos : (0 : ℚ) < 10 ^ digits := by positivity
  have hround := abs_roundHalfEven_sub_le (q * 10 ^ digits)
  have hscale : roundTo digits q - q = (roundHalfEven (q * 10 ^ digits) - q * 10 ^ digits) / 10 ^ digits := by
    rw [roundTo, sub_div, mul_div_cancel_right₀ q hpos.ne']
  rw [hscale, abs_div, abs_of_pos hpos]
  exact div_le_div_of_nonneg_right hround hpos.le

theorem roundTo_of_int {digits : Nat} {q : ℚ} (h : ∃ n : ℤ, q * 10 ^ digits = n) :
    roundTo digits q = q := by
  obtain ⟨n, hn⟩ := h
  rw [roundTo, hn, roundHalfEven_intCast, ← hn, mul_div_cancel_right₀ q (by positivity)]

/-! ## Floats -/

/-- The nearest number of 53 bits, ties to even. Exponents have no bounds. -/
def toDouble (q : ℚ) : ℚ :=
  let k : ℤ := q.num.natAbs.log2 - q.den.log2
  let ulp : ℚ := 2 ^ ((if |q| < 2 ^ k then k - 1 else k) - 52)
  roundHalfEven (q / ulp) * ulp

end Swarm.Lib
