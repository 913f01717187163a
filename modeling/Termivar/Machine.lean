/-
# Machine integers

The sources count with `u8` to `u64` and, on the 64-bit targets they are built
for, `usize` of 64 bits. The models count with natural numbers and make the
checked operations explicit.
-/
import Mathlib

namespace Termivar

abbrev Bytes : Type := List UInt8

def u8Max : Nat := 2 ^ 8 - 1

def u16Max : Nat := 2 ^ 16 - 1

def u32Max : Nat := 2 ^ 32 - 1

def u64Max : Nat := 2 ^ 64 - 1

/-- `checked_add` of an unsigned type with the largest value `top`. -/
def checkedAdd (top a b : Nat) : Option Nat := if a + b ≤ top then some (a + b) else none

theorem checkedAdd_eq_some {top a b c : Nat} :
    checkedAdd top a b = some c ↔ a + b ≤ top ∧ c = a + b := by
  unfold checkedAdd
  split_ifs with h
  · simp [h, eq_comm]
  · simp [h]

theorem checkedAdd_eq_none {top a b : Nat} : checkedAdd top a b = none ↔ top < a + b := by
  unfold checkedAdd
  split_ifs with h
  · simp [h]
  · simpa using h

/-- `saturating_add` of an unsigned type with the largest value `top`. -/
def saturatingAdd (top a b : Nat) : Nat := min (a + b) top

theorem le_saturatingAdd {top a b : Nat} (h : a ≤ top) : a ≤ saturatingAdd top a b := by
  unfold saturatingAdd
  omega

/-- Nothing is lost below the largest value. -/
theorem saturatingAdd_eq {top a b : Nat} (h : a + b ≤ top) : saturatingAdd top a b = a + b :=
  Nat.min_eq_left h

end Termivar
