/-
# Division rounded to the nearest number

Adding half the divisor before a truncating division rounds the quotient to
the nearest number, halves upward: the result is Mathlib's `round` of the
rational quotient, so rounding is monotone and keeps whole quotients.
-/
import Mathlib

namespace Termivar

/-- The quotient, rounded to the nearest number. -/
def roundDiv (n d : Nat) : Nat := (n + d / 2) / d

variable {n m d e k : Nat}

/-- `roundDiv` is the rounding of the rational quotient. A half of an odd
divisor loses nothing: twice the sum is then odd, and no multiple of `2 * d`. -/
theorem roundDiv_eq_round (hd : 0 < d) : (roundDiv n d : ℤ) = round ((n : ℚ) / d) := by
  have hdq : (0 : ℚ) < d := by exact_mod_cast hd
  have hshift : (n : ℚ) / d + 1 / 2 = ((2 * n + d : ℕ) : ℚ) / ((2 * d : ℕ) : ℚ) := by
    push_cast
    field_simp
  rw [round_eq, hshift, Rat.floor_natCast_div_natCast]
  norm_cast
  unfold roundDiv
  rw [← Nat.div_div_eq_div_mul]
  congr 1
  omega

/-- The rounded quotient is within one half of the quotient. -/
theorem roundDiv_within_half (hd : 0 < d) : |(n : ℚ) / d - roundDiv n d| ≤ 1 / 2 := by
  have h := abs_sub_round ((n : ℚ) / d)
  rw [← roundDiv_eq_round hd] at h
  exact_mod_cast h

/-- The order of two quotients is that of the products across. -/
theorem roundDiv_mono (hd : 0 < d) (he : 0 < e) (h : n * e ≤ m * d) :
    roundDiv n d ≤ roundDiv m e := by
  have hdq : (0 : ℚ) < d := by exact_mod_cast hd
  have heq : (0 : ℚ) < e := by exact_mod_cast he
  have hquot : (n : ℚ) / d ≤ (m : ℚ) / e := by
    rw [div_le_div_iff₀ hdq heq]
    exact_mod_cast h
  have hround : round ((n : ℚ) / d) ≤ round ((m : ℚ) / e) := by
    rw [round_eq, round_eq]
    exact Int.floor_le_floor (by linarith)
  rw [← roundDiv_eq_round hd, ← roundDiv_eq_round he] at hround
  exact_mod_cast hround

theorem roundDiv_one : roundDiv n 1 = n := by
  unfold roundDiv
  omega

theorem le_roundDiv (hd : 0 < d) (h : k * d ≤ n) : k ≤ roundDiv n d := by
  have hle := roundDiv_mono Nat.one_pos hd (n := k) (m := n) (by omega)
  rwa [roundDiv_one] at hle

theorem roundDiv_le (hd : 0 < d) (h : n ≤ k * d) : roundDiv n d ≤ k := by
  have hle := roundDiv_mono hd Nat.one_pos (n := n) (m := k) (by omega)
  rwa [roundDiv_one] at hle

end Termivar
