/-
# WordPress components

`termivar-scanner/src/wordpress_review.rs`: the kinds of components and the
identity of one, a kind with a slug, and the identity a source catalogue gives
it, which need not be a valid one. Both are ordered by kind and then by slug.
-/
import Termivar.Framing
import Termivar.Collections

namespace Termivar

def maxWordpressSlugBytes : Nat := 64

inductive WordPressComponentKind where
  | core
  | plugin
  | theme
  deriving DecidableEq

/-- The place of a kind in the enumeration. -/
def WordPressComponentKind.rank : WordPressComponentKind → Nat
  | .core => 0
  | .plugin => 1
  | .theme => 2

theorem WordPressComponentKind.rank_injective : Function.Injective rank := by
  intro a b h
  cases a <;> cases b <;> simp_all [rank]

instance : Ord WordPressComponentKind := ⟨compareOn WordPressComponentKind.rank⟩

instance : Std.TransOrd WordPressComponentKind :=
  inferInstanceAs (Std.TransCmp (compareOn WordPressComponentKind.rank))

instance : Std.LawfulEqOrd WordPressComponentKind :=
  lawfulEqCmp_compareOn WordPressComponentKind.rank_injective

/-- The loop over the bytes of a slug. -/
def slugBytes : Bool → Bytes → Bool
  | previousHyphen, [] => !previousHyphen
  | previousHyphen, byte :: rest =>
    if (97 ≤ byte ∧ byte ≤ 122) ∨ (48 ≤ byte ∧ byte ≤ 57) then slugBytes false rest
    else if byte = 45 ∧ previousHyphen = false then slugBytes true rest
    else false

/-- Lower-case letters and digits, with single hyphens between them. -/
def validSlug (value : String) : Bool :=
  let bytes := utf8Bytes value
  if bytes.isEmpty ∨ maxWordpressSlugBytes < bytes.length then false else slugBytes true bytes

/-- The slug of the core is `wordpress` and that of no other component is. -/
def validComponent (kind : WordPressComponentKind) (slug : String) : Bool :=
  !(!validSlug slug || (kind = .core && slug ≠ "wordpress") || (kind ≠ .core && slug = "wordpress"))

structure WordPressComponentIdentity where
  kind : WordPressComponentKind
  slug : String
  valid : validComponent kind slug = true
  deriving DecidableEq

namespace WordPressComponentIdentity

/-- `WordPressComponentIdentity::new`; its one error is
`InvalidComponentIdentity`. -/
def new (kind : WordPressComponentKind) (slug : String) : Option WordPressComponentIdentity :=
  if h : validComponent kind slug = true then some ⟨kind, slug, h⟩ else none

instance : Ord WordPressComponentIdentity :=
  ⟨compareLex (compareOn WordPressComponentIdentity.kind) (compareOn WordPressComponentIdentity.slug)⟩

instance : Std.TransOrd WordPressComponentIdentity :=
  inferInstanceAs (Std.TransCmp (compareLex (compareOn WordPressComponentIdentity.kind)
    (compareOn WordPressComponentIdentity.slug)))

instance : Std.LawfulEqOrd WordPressComponentIdentity :=
  lawfulEqCmp_compareLex (by simp [compareOn]) (by simp [compareOn]) (by
    rintro ⟨kind, slug, _⟩ ⟨kind', slug', _⟩ hkind hslug
    simp only [compareOn, Std.LawfulEqOrd.compare_eq_iff_eq] at hkind hslug
    subst hkind hslug
    rfl)

end WordPressComponentIdentity

/-- What a source catalogue calls a component. -/
structure WordfenceV3SourceComponentIdentity where
  kind : WordPressComponentKind
  slug : String
  deriving DecidableEq

namespace WordfenceV3SourceComponentIdentity

instance : Ord WordfenceV3SourceComponentIdentity :=
  ⟨compareLex (compareOn WordfenceV3SourceComponentIdentity.kind)
    (compareOn WordfenceV3SourceComponentIdentity.slug)⟩

instance : Std.TransOrd WordfenceV3SourceComponentIdentity :=
  inferInstanceAs (Std.TransCmp (compareLex (compareOn WordfenceV3SourceComponentIdentity.kind)
    (compareOn WordfenceV3SourceComponentIdentity.slug)))

instance : Std.LawfulEqOrd WordfenceV3SourceComponentIdentity :=
  lawfulEqCmp_compareLex (by simp [compareOn]) (by simp [compareOn]) (by
    rintro ⟨kind, slug⟩ ⟨kind', slug'⟩ hkind hslug
    simp only [compareOn, Std.LawfulEqOrd.compare_eq_iff_eq] at hkind hslug
    rw [hkind, hslug])

end WordfenceV3SourceComponentIdentity
end Termivar
