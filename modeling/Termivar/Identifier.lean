/-
# Identifiers

The sources wrap their identifiers in newtypes over a string that is not
blank. Here they are one structure with the kind of the newtype as a
parameter, which carries the proof that its value is not blank.
-/
import Termivar.Collections

namespace Termivar

/-- `char::is_whitespace`: the Unicode property `White_Space`. -/
def isWhitespace (c : Char) : Bool :=
  (0x9 ≤ c.toNat && c.toNat ≤ 0xD) || c.toNat = 0x20 || c.toNat = 0x85 || c.toNat = 0xA0 ||
    c.toNat = 0x1680 || (0x2000 ≤ c.toNat && c.toNat ≤ 0x200A) || c.toNat = 0x2028 ||
    c.toNat = 0x2029 || c.toNat = 0x202F || c.toNat = 0x205F || c.toNat = 0x3000

/-- `value.trim().is_empty()`. -/
def isBlank (value : String) : Bool := value.toList.all isWhitespace

/-- The newtypes over validated strings. -/
inductive IdKind where
  | concept
  | relationType
  | entity
  | evidence
  | relation

/-- A string that is not blank, under one of the newtypes. -/
structure Identifier (kind : IdKind) where
  value : String
  notBlank : isBlank value = false

instance {kind : IdKind} : DecidableEq (Identifier kind) := fun a b =>
  decidable_of_iff (a.value = b.value) (by cases a; cases b; simp)

namespace Identifier

variable {kind : IdKind}

theorem value_injective : Function.Injective fun id : Identifier kind => id.value := by
  rintro ⟨a, _⟩ ⟨b, _⟩ h
  simp only at h
  subst h
  rfl

/-- Identifiers are ordered as their strings. -/
instance : Ord (Identifier kind) where
  compare := compareOn (·.value)

instance : Std.TransOrd (Identifier kind) :=
  inferInstanceAs (Std.TransCmp (compareOn Identifier.value))

instance : Std.LawfulEqOrd (Identifier kind) := lawfulEqCmp_compareOn value_injective

end Identifier

end Termivar
