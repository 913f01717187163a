/-
# Texts

`str::len` counts the bytes of the UTF-8 encoding. For a text of ASCII
characters it is the number of characters. `split_once`, `strip_prefix` and
`strip_suffix` cut a text, here a list of characters, at its first separator or
at its ends; `str::parse::<u64>` reads digits after an optional plus sign.
-/
import Termivar.Machine

namespace Termivar

open List

theorem byteSize_ofList : ∀ cs : List Char,
    (String.ofList cs).utf8ByteSize = (cs.map Char.utf8Size).sum
  | [] => rfl
  | c :: cs => by
    have hcons : String.ofList (c :: cs) = String.singleton c ++ String.ofList cs := by
      rw [← String.toList_inj]
      simp
    rw [hcons, String.utf8ByteSize_append, byteSize_ofList cs, String.utf8ByteSize_singleton]
    simp

theorem byteSize_ascii {cs : List Char} (h : ∀ c ∈ cs, c.utf8Size = 1) :
    (String.ofList cs).utf8ByteSize = cs.length := by
  rw [byteSize_ofList, map_congr_left h]
  simp

/-! ### Cutting -/

/-- `split_once`: what stands before and after the first separator. -/
def splitOnce (separator : Char) : List Char → Option (List Char × List Char)
  | [] => none
  | c :: cs =>
    if c = separator then some ([], cs)
    else (splitOnce separator cs).map fun (before, after) => (c :: before, after)

/-- `strip_prefix`. -/
def stripPrefix : List Char → List Char → Option (List Char)
  | [], cs => some cs
  | _ :: _, [] => none
  | p :: ps, c :: cs => if p = c then stripPrefix ps cs else none

/-- `strip_suffix`. -/
def stripSuffix (ending cs : List Char) : Option (List Char) :=
  (stripPrefix ending.reverse cs.reverse).map reverse

variable {separator : Char} {before after cs rest : List Char}

theorem splitOnce_eq_some : splitOnce separator cs = some (before, after) ↔
    cs = before ++ separator :: after ∧ separator ∉ before := by
  induction cs generalizing before with
  | nil => simp [splitOnce]
  | cons c cs ih =>
    unfold splitOnce
    split_ifs with hc
    · subst hc
      cases before with
      | nil => simp [eq_comm]
      | cons b before =>
        simp only [Option.some.injEq, Prod.mk.injEq, cons_append, cons.injEq, mem_cons]
        constructor
        · rintro ⟨hnil, -⟩
          cases hnil
        · rintro ⟨⟨hb, -⟩, hnot⟩
          exact absurd (Or.inl hb) hnot
    · cases before with
      | nil => simp [hc]
      | cons b before =>
        simp only [Option.map_eq_some_iff, Prod.exists, Prod.mk.injEq, cons.injEq, cons_append,
          mem_cons, not_or]
        constructor
        · rintro ⟨l, r, hspl, ⟨rfl, rfl⟩, rfl⟩
          obtain ⟨hcs, hnot⟩ := ih.mp hspl
          exact ⟨⟨rfl, hcs⟩, Ne.symm hc, hnot⟩
        · rintro ⟨⟨rfl, hcs⟩, -, hnot⟩
          exact ⟨before, after, ih.mpr ⟨hcs, hnot⟩, ⟨rfl, rfl⟩, rfl⟩

theorem splitOnce_eq_none : splitOnce separator cs = none ↔ separator ∉ cs := by
  induction cs with
  | nil => simp [splitOnce]
  | cons c cs ih =>
    unfold splitOnce
    split_ifs with hc
    · simp [hc]
    · simp [ih, Ne.symm hc]

theorem stripPrefix_eq_some : ∀ {start cs : List Char},
    stripPrefix start cs = some rest ↔ cs = start ++ rest
  | [], cs => by simp [stripPrefix]
  | p :: ps, [] => by simp [stripPrefix]
  | p :: ps, c :: cs => by
    unfold stripPrefix
    split_ifs with hc
    · simp [hc, stripPrefix_eq_some]
    · simp [Ne.symm hc]

theorem stripSuffix_eq_some {ending : List Char} :
    stripSuffix ending cs = some rest ↔ cs = rest ++ ending := by
  unfold stripSuffix
  simp only [Option.map_eq_some_iff, stripPrefix_eq_some]
  constructor
  · rintro ⟨tail, hcs, rfl⟩
    have := congrArg reverse hcs
    simpa using this
  · rintro rfl
    exact ⟨rest.reverse, by simp, by simp⟩

/-! ### Numbers -/

/-- The digits after an optional plus sign. -/
def afterPlus : List Char → List Char
  | '+' :: cs => cs
  | cs => cs

/-- `str::parse::<u64>`. -/
def parseU64 (cs : List Char) : Option Nat :=
  let digits := afterPlus cs
  if digits = [] ∨ !digits.all Char.isDigit then none
  else
    let value := Nat.ofDigitChars 10 digits 0
    if value ≤ u64Max then some value else none

theorem afterPlus_toDigits (n : Nat) : afterPlus (Nat.toDigits 10 n) = Nat.toDigits 10 n := by
  unfold afterPlus
  split
  · rename_i rest heq
    have hdig : ('+').isDigit = true :=
      Nat.isDigit_of_mem_toDigits (by decide) le_rfl (heq ▸ mem_cons_self)
    exact absurd hdig (by decide)
  · rfl

/-- A number that is written out parses back. -/
theorem parseU64_toDigits {n : Nat} (h : n ≤ u64Max) : parseU64 (Nat.toDigits 10 n) = some n := by
  have hdigs : (Nat.toDigits 10 n).all Char.isDigit = true :=
    all_eq_true.mpr fun c hc => Nat.isDigit_of_mem_toDigits (by decide) le_rfl hc
  unfold parseU64
  simp only [afterPlus_toDigits, hdigs, Nat.toDigits_ne_nil, Nat.ofDigitChars_ten_toDigits, h,
    Bool.not_true, Bool.false_eq_true, or_self, if_false, if_true]

end Termivar
