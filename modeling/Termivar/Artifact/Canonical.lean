/-
# Canonical pattern texts

`ArtifactPattern::parse`: tokens between ASCII whitespace, two hexadecimal
digits or a wildcard each. The canonical text of a pattern is read back as the
pattern (`ArtifactPattern.parse_canonical`), and patterns with different atoms
differ on a sample of one of them (`ArtifactPattern.atoms_eq_of_matchesAt`): to
compare canonical texts is to compare what is matched.
-/
import Termivar.FormUrlencoded
import Termivar.Artifact.BruteForce

namespace Termivar.ArtifactPattern

open List

/-! ### Compiling -/

def maxPatternTextBytes : Nat := maxPatternBytes * 4

/-- `is_ascii_whitespace`. -/
def isAsciiWhitespace (c : Char) : Bool :=
  c = ' ' || c = '\t' || c = '\n' || c = '\x0c' || c = '\r'

/-- The bytes a source is made of. -/
def isPatternChar (c : Char) : Bool :=
  isAsciiWhitespace c || (Form.hexValue c).isSome || c = '?'

/-- `split_ascii_whitespace`, behind the token that was begun. -/
def splitAsciiWhitespace (token : List Char) : List Char → List (List Char)
  | [] => if token = [] then [] else [token]
  | c :: cs =>
    if isAsciiWhitespace c then
      if token = [] then splitAsciiWhitespace [] cs else token :: splitAsciiWhitespace [] cs
    else splitAsciiWhitespace (token ++ [c]) cs

def readAtom : List Char → Except ArtifactError PatternAtom
  | ['?'] | ['?', '?'] => .ok .wildcard
  | [high, low] => (okOr (Form.hexPair high low) .invalidPattern).map .exact
  | _ => .error .invalidPattern

/-- The atoms read so far. -/
abbrev PatternAtoms : Type := { atoms : List PatternAtom // atoms.length ≤ maxPatternBytes }

def pushAtom (atoms : PatternAtoms) (token : List Char) : Except ArtifactError PatternAtoms :=
  if h : atoms.val.length ≥ maxPatternBytes then
    .error (.limitExceeded "signature pattern bytes" maxPatternBytes)
  else (readAtom token).map fun atom =>
    ⟨atoms.val ++ [atom], by rw [length_append]; exact Nat.lt_of_not_le h⟩

def parse (source : String) : Except ArtifactError ArtifactPattern := do
  if source = "" ∨ source.utf8ByteSize > maxPatternTextBytes then throw .invalidPattern
  if !source.toList.all isPatternChar then throw .invalidPattern
  let atoms ← (splitAsciiWhitespace [] source.toList).foldlM pushAtom ⟨[], Nat.zero_le _⟩
  if atoms.val = [] then throw .invalidPattern
  if h : (literals atoms.val).length < minLiteralBytes then throw .insufficientLiteralBytes
  else return ⟨atoms.val, atoms.property, Nat.le_of_not_lt h⟩

/-! ### The canonical text is read back -/

theorem hexValue_hexUpper : ∀ n < 16, Form.hexValue (hexUpper n) = some n ∧
    (hexUpper n).utf8Size = 1 ∧ isAsciiWhitespace (hexUpper n) = false ∧ hexUpper n ≠ '?' := by
  decide +kernel

/-- The digits of a byte are read as the byte. -/
theorem hexPair_hexUpper (byte : UInt8) :
    Form.hexPair (hexUpper (byte.toNat / 16)) (hexUpper (byte.toNat % 16)) = some byte := by
  have hbyte := byte.toNat_lt
  simp only [Form.hexPair, (hexValue_hexUpper _ (by omega : byte.toNat / 16 < 16)).1,
    (hexValue_hexUpper _ (by omega : byte.toNat % 16 < 16)).1, bind, Option.bind, pure]
  rw [Nat.div_add_mod, UInt8.ofNat_toNat]

theorem text_chars (atom : PatternAtom) : atom.text.toList ≠ [] ∧ atom.text.toList.length = 2 ∧
    ∀ c ∈ atom.text.toList, isPatternChar c = true ∧ c.utf8Size = 1 ∧ isAsciiWhitespace c = false := by
  cases atom with
  | exact byte =>
    simp only [PatternAtom.text, String.toList_ofList]
    have hbyte := byte.toNat_lt
    have hdig : ∀ n < 16, isPatternChar (hexUpper n) = true ∧ (hexUpper n).utf8Size = 1 ∧
        isAsciiWhitespace (hexUpper n) = false := by
      intro n hn
      obtain ⟨hvalue, hsize, hspace, -⟩ := hexValue_hexUpper n hn
      exact ⟨by simp [isPatternChar, hvalue], hsize, hspace⟩
    refine ⟨by simp, rfl, fun c hc => ?_⟩
    simp only [mem_cons, not_mem_nil, or_false] at hc
    rcases hc with rfl | rfl <;> exact hdig _ (by omega)
  | wildcard =>
    have htext : PatternAtom.wildcard.text.toList = ['?', '?'] := by simp [PatternAtom.text]
    rw [htext]
    refine ⟨by simp, rfl, fun c hc => ?_⟩
    rw [show c = '?' by simpa using hc]
    exact ⟨by decide, by decide, by decide⟩

theorem readAtom_text (atom : PatternAtom) : readAtom atom.text.toList = .ok atom := by
  cases atom with
  | exact byte =>
    have hbyte := byte.toNat_lt
    have hhigh := (hexValue_hexUpper (byte.toNat / 16) (by omega)).2.2.2
    simp only [PatternAtom.text, String.toList_ofList]
    unfold readAtom
    split
    · rename_i heq
      simp at heq
    · rename_i heq
      exact absurd (cons.inj heq).1 hhigh
    · rename_i heq
      cases heq
      rw [hexPair_hexUpper]
      rfl
    · rename_i hno
      exact absurd rfl (hno _ _)
  | wildcard => rfl

/-- A word without whitespace is one token. -/
theorem splitAsciiWhitespace_word {word : List Char} (hword : ∀ c ∈ word, isAsciiWhitespace c = false) :
    ∀ {token rest : List Char}, splitAsciiWhitespace token (word ++ rest) =
      splitAsciiWhitespace (token ++ word) rest := by
  induction word with
  | nil => simp
  | cons c word ih =>
    intro token rest
    rw [cons_append, splitAsciiWhitespace, if_neg (by simp [hword c mem_cons_self]),
      ih fun d hd => hword d (mem_cons_of_mem _ hd), append_assoc, singleton_append]

theorem intercalate_blank (word next : List Char) (words : List (List Char)) :
    [' '].intercalate (word :: next :: words) = word ++ ' ' :: [' '].intercalate (next :: words) := by
  simp [intercalate]

theorem splitAsciiWhitespace_intercalate : ∀ {words : List (List Char)},
    (∀ word ∈ words, word ≠ [] ∧ ∀ c ∈ word, isAsciiWhitespace c = false) →
    splitAsciiWhitespace [] ([' '].intercalate words) = words
  | [], _ => rfl
  | [word], h => by
    obtain ⟨hne, hchr⟩ := h word mem_cons_self
    have hspl := @splitAsciiWhitespace_word word hchr [] []
    rw [append_nil, nil_append] at hspl
    simp [intercalate, hspl, splitAsciiWhitespace, hne]
  | word :: next :: words, h => by
    obtain ⟨hne, hchr⟩ := h word mem_cons_self
    rw [intercalate_blank, splitAsciiWhitespace_word hchr, nil_append, splitAsciiWhitespace,
      if_pos (by decide), if_neg hne,
      splitAsciiWhitespace_intercalate fun w hw => h w (mem_cons_of_mem _ hw)]

theorem foldlM_pushAtom : ∀ {atoms : List PatternAtom} {before : PatternAtoms}
    (h : (before.val ++ atoms).length ≤ maxPatternBytes),
    (atoms.map fun atom => atom.text.toList).foldlM pushAtom before = .ok ⟨before.val ++ atoms, h⟩
  | [], before, h => by simp [pure, Except.pure]
  | atom :: atoms, before, h => by
    have hroom : ¬ before.val.length ≥ maxPatternBytes := by
      simp only [length_append, length_cons] at h
      omega
    have hpush : pushAtom before atom.text.toList = .ok ⟨before.val ++ [atom], by
        rw [length_append]; exact Nat.lt_of_not_le hroom⟩ := by
      rw [pushAtom, dif_neg hroom, readAtom_text]
      rfl
    rw [map_cons, foldlM_cons, hpush]
    refine (foldlM_pushAtom (by simpa using h)).trans ?_
    simp

variable (pattern : ArtifactPattern)

theorem canonical_toList : pattern.canonical.toList =
    [' '].intercalate (pattern.atoms.map fun atom => atom.text.toList) := by
  rw [canonical, String.toList_intercalate, map_map]
  rfl

/-- What holds of the blank and of the characters of all atoms; an atom takes
three bytes with the blank behind it. -/
theorem canonical_forall {P : Char → Prop} (hblk : P ' ')
    (h : ∀ atom : PatternAtom, ∀ c ∈ atom.text.toList, P c) :
    pattern.canonical.toList.length + 1 = 3 * pattern.atoms.length ∧
      ∀ c ∈ pattern.canonical.toList, P c := by
  have hall : ∀ {atoms : List PatternAtom}, atoms ≠ [] →
      ([' '].intercalate (atoms.map fun atom => atom.text.toList)).length + 1 = 3 * atoms.length ∧
        ∀ c ∈ [' '].intercalate (atoms.map fun atom => atom.text.toList), P c := by
    intro atoms
    induction atoms with
    | nil => exact fun h => absurd rfl h
    | cons atom atoms ih =>
      intro _
      cases atoms with
      | nil => simpa [intercalate, (text_chars atom).2.1] using h atom
      | cons next atoms =>
        obtain ⟨hlength, hchr⟩ := ih (by simp)
        simp only [map_cons, intercalate_blank] at hlength hchr ⊢
        refine ⟨?_, fun c hc => ?_⟩
        · simp only [length_append, length_cons, (text_chars atom).2.1] at hlength ⊢
          omega
        · rcases mem_append.mp hc with hc | hc
          · exact h atom c hc
          · rcases mem_cons.mp hc with rfl | hc
            · exact hblk
            · exact hchr c hc
  rw [canonical_toList]
  exact hall (ne_nil_of_length_pos pattern.len_pos)

theorem canonical_chars : pattern.canonical.utf8ByteSize + 1 = 3 * pattern.atoms.length ∧
    ∀ c ∈ pattern.canonical.toList, isPatternChar c = true := by
  obtain ⟨hlength, hall⟩ := @canonical_forall pattern (fun c => isPatternChar c = true ∧ c.utf8Size = 1)
    (by decide) fun atom c hc => ⟨((text_chars atom).2.2 c hc).1, ((text_chars atom).2.2 c hc).2.1⟩
  have hsize : pattern.canonical.utf8ByteSize = pattern.canonical.toList.length := by
    conv_lhs => rw [← String.ofList_toList (s := pattern.canonical)]
    exact byteSize_ascii fun c hc => (hall c hc).2
  exact ⟨hsize ▸ hlength, fun c hc => (hall c hc).1⟩

theorem parse_canonical : parse pattern.canonical = .ok pattern := by
  obtain ⟨hsize, hall⟩ := pattern.canonical_chars
  have hbd := pattern.bounded
  have hpos := pattern.len_pos
  unfold len at hpos
  have hne : pattern.canonical ≠ "" := by
    intro h
    rw [h, String.utf8ByteSize_empty] at hsize
    omega
  have hchr : (!pattern.canonical.toList.all isPatternChar) = false := by
    rw [Bool.not_eq_false', all_eq_true]
    exact hall
  have hspl : splitAsciiWhitespace [] pattern.canonical.toList =
      pattern.atoms.map fun atom => atom.text.toList := by
    rw [canonical_toList, splitAsciiWhitespace_intercalate]
    intro word hword
    obtain ⟨atom, -, rfl⟩ := mem_map.mp hword
    exact ⟨(text_chars atom).1, fun c hc => ((text_chars atom).2.2 c hc).2.2⟩
  have hatoms : pattern.atoms ≠ [] := ne_nil_of_length_pos hpos
  have hlit : ¬ (literals pattern.atoms).length < minLiteralBytes := Nat.not_lt.mpr pattern.literal
  unfold parse
  rw [if_neg (by rw [not_or, Nat.not_lt, maxPatternTextBytes]; exact ⟨hne, by omega⟩), hchr, hspl,
    foldlM_pushAtom (by simpa using hbd)]
  simp [bind, Except.bind, hatoms, hlit, pure, Except.pure]

theorem canonical_injective : Function.Injective canonical := by
  intro a b h
  have hprs := a.parse_canonical
  rw [h, b.parse_canonical] at hprs
  exact (Except.ok.inj hprs).symm

/-! ### Samples -/

/-- An input of the pattern, with one byte at all wildcards. -/
def sample (fill : UInt8) : Bytes :=
  pattern.atoms.map fun
    | .exact byte => byte
    | .wildcard => fill

theorem sample_occurs (fill : UInt8) : pattern.OccursAt (pattern.sample fill) 0 := by
  intro i atom hatom
  rw [Nat.zero_add, sample, getElem?_map, hatom]
  cases atom <;> simp

variable {pattern} {other : ArtifactPattern}

/-- A pattern that occurs in all samples of another is not longer, and its exact
bytes are exact bytes of the other. -/
theorem exact_of_occurs (h : ∀ fill, other.OccursAt (pattern.sample fill) 0) :
    other.atoms.length ≤ pattern.atoms.length ∧
      ∀ (i : Nat) (byte : UInt8), other.atoms[i]? = some (.exact byte) →
        pattern.atoms[i]? = some (.exact byte) := by
  refine ⟨by simpa [sample, len] using (h 0).end_le, fun i byte hbyte => ?_⟩
  have hat : ∀ fill, ∃ atom, pattern.atoms[i]? = some atom ∧
      (match atom with | .exact b => b | .wildcard => fill) = byte := by
    intro fill
    obtain ⟨shown, hshown, hfits⟩ := h fill i _ hbyte
    rw [Nat.zero_add, sample, getElem?_map, Option.map_eq_some_iff] at hshown
    obtain ⟨atom, hatom, hvalue⟩ := hshown
    rcases hfits with hfits | hfits <;> cases hfits
    exact ⟨atom, hatom, hvalue⟩
  obtain ⟨atom, hatom, hvalue⟩ := hat (byte + 1)
  cases atom with
  | exact b => exact hatom.trans (by rw [← hvalue])
  | wildcard => simp at hvalue

theorem atoms_eq_of_matchesAt
    (h : ∀ input, pattern.matchesAt input 0 = other.matchesAt input 0) : pattern.atoms = other.atoms := by
  have hocc : ∀ {p : ArtifactPattern} {fill : UInt8},
      pattern.OccursAt (p.sample fill) 0 ↔ other.OccursAt (p.sample fill) 0 := by
    intro p fill
    have hsm : (p.sample fill).length ≤ u64Max := by
      rw [sample, List.length_map]
      exact le_trans p.bounded (by decide)
    rw [← matchesAt_iff hsm, ← matchesAt_iff hsm, h]
  obtain ⟨hle, hexact⟩ := exact_of_occurs fun fill => hocc.mp (pattern.sample_occurs fill)
  obtain ⟨hge, hexact'⟩ := exact_of_occurs fun fill => hocc.mpr (other.sample_occurs fill)
  refine List.ext_getElem (Nat.le_antisymm hge hle) fun i hi hi' => ?_
  cases hatom : pattern.atoms[i] with
  | exact byte =>
    have := hexact' i byte (List.getElem?_eq_some_iff.mpr ⟨hi, hatom⟩)
    exact ((List.getElem?_eq_some_iff.mp this).2).symm
  | wildcard =>
    cases hoth : other.atoms[i] with
    | exact byte =>
      have := hexact i byte (List.getElem?_eq_some_iff.mpr ⟨hi', hoth⟩)
      rw [(List.getElem?_eq_some_iff.mp this).2] at hatom
      cases hatom
    | wildcard => rfl

/-- **Canonical texts decide what is matched.** The canonical text of a pattern
is accepted and compiles to the pattern. Two patterns have one canonical text
exactly if they have the same atoms; then they match the same inputs at the same
offsets, and otherwise some input tells them apart. -/
theorem canonical_decides (pattern other : ArtifactPattern) :
    parse pattern.canonical = .ok pattern ∧
    (pattern.canonical = other.canonical ↔ pattern.atoms = other.atoms) ∧
    (pattern.canonical = other.canonical →
      ∀ input start, pattern.matchesAt input start = other.matchesAt input start) ∧
    (pattern.canonical ≠ other.canonical →
      ∃ input start, pattern.matchesAt input start ≠ other.matchesAt input start) := by
  refine ⟨pattern.parse_canonical, ⟨fun h => congrArg atoms (canonical_injective h), fun h => ?_⟩,
    fun h input start => by rw [canonical_injective h], fun hne => ?_⟩
  · rw [canonical, canonical, h]
  · by_contra hsame
    push Not at hsame
    refine hne ?_
    rw [canonical, canonical, atoms_eq_of_matchesAt fun input => hsame input 0]

end Termivar.ArtifactPattern
