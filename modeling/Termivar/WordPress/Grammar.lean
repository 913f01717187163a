/-
# The grammar of PHP releases

What the parser of PHP releases accepts, and as which version: one to eight
numbers with a separator between two of them, and behind them, with or without
a separator, a stage that may have a counter. Stages are tried longest first,
so a one-letter stage is read only where no longer one stands.
-/
import Termivar.Command
import Termivar.WordPress.Version

namespace Termivar

open PhpReleaseSubsetVersion List

/-! ### The grammar -/

def digitsValue (start : Nat) (digits : Bytes) : Nat :=
  digits.foldl (fun value digit => value * 10 + digitValue digit) start

/-- A number: one to ten digits, of a bounded value. -/
structure NumberText (text : Bytes) (n : Nat) : Prop where
  nonempty : text ≠ []
  digits : ∀ byte ∈ text, isAsciiDigit byte = true
  short : text.length ≤ maxPhpNumericDigits
  value : digitsValue 0 text = n
  bounded : n ≤ maxPhpNumericValue

/-- Numbers with a separator between two of them. -/
inductive NumbersText : Bytes → List Nat → Prop
  | one {text : Bytes} {n : Nat} (h : NumberText text n) : NumbersText text [n]
  | more {text rest : Bytes} {n : Nat} {numbers : List Nat} {separator : UInt8}
      (h : NumberText text n) (hseparator : isPhpSeparator separator = true)
      (hrest : NumbersText rest numbers) : NumbersText (text ++ separator :: rest) (n :: numbers)

/-- A separator, or nothing. -/
inductive OptionalSeparator : Bytes → Prop
  | none : OptionalSeparator []
  | some {separator : UInt8} (h : isPhpSeparator separator = true) : OptionalSeparator [separator]

/-- A stage, and a counter that may stand behind it. -/
inductive SuffixText : Bytes → PhpReleaseStage → Option Nat → Prop
  | plain {text : Bytes} {stage : PhpReleaseStage} (h : (text, stage) ∈ phpSuffixes) :
      SuffixText text stage none
  | counted {text separator number : Bytes} {stage : PhpReleaseStage} {n : Nat}
      (h : (text, stage) ∈ phpSuffixes) (hseparator : OptionalSeparator separator)
      (hnumber : NumberText number n) : SuffixText (text ++ (separator ++ number)) stage (some n)

/-- A release, and the version it stands for. -/
inductive ReleaseText : Bytes → PhpReleaseSubsetVersion → Prop
  | final {text : Bytes} {numbers : List Nat} (h : NumbersText text numbers) :
      ReleaseText text ⟨numbers, none, none⟩
  | staged {text separator suffix : Bytes} {numbers : List Nat} {stage : PhpReleaseStage}
      {counter : Option Nat} (h : NumbersText text numbers) (hseparator : OptionalSeparator separator)
      (hsuffix : SuffixText suffix stage counter) :
      ReleaseText (text ++ (separator ++ suffix)) ⟨numbers, some stage, counter⟩

/-! ### Numbers -/

/-- Whether a text begins with a digit. -/
def startsWithDigit (text : Bytes) : Bool := text.head?.any isAsciiDigit

theorem pushPhpDigit_eq_some {value next : Nat} {byte : UInt8} :
    pushPhpDigit value byte = some next ↔
      next = value * 10 + digitValue byte ∧ next ≤ maxPhpNumericValue := by
  have hmax : maxPhpNumericValue ≤ u32Max := by decide
  simp only [pushPhpDigit, checkedMul, checkedAdd, Option.filter_eq_some_iff, Option.bind_eq_some_iff,
    Option.ite_none_right_eq_some, Option.some.injEq, decide_eq_true_eq]
  constructor
  · rintro ⟨⟨product, ⟨-, rfl⟩, -, rfl⟩, hbd⟩
    exact ⟨rfl, hbd⟩
  · rintro ⟨rfl, hbd⟩
    exact ⟨⟨value * 10, ⟨by omega, rfl⟩, by omega, rfl⟩, hbd⟩

theorem le_digitsValue : ∀ (digits : Bytes) (value : Nat), value ≤ digitsValue value digits
  | [], _ => le_refl _
  | digit :: digits, value => by
    refine le_trans ?_ (le_digitsValue digits (value * 10 + digitValue digit))
    omega

/-- What the loop over digits reads. -/
theorem parsePhpNumberFrom_ok : ∀ {bytes : Bytes} {count value n : Nat} {rest : Bytes},
    parsePhpNumberFrom count value bytes = .ok (n, rest) → count ≤ maxPhpNumericDigits →
    value ≤ maxPhpNumericValue →
    ∃ digits, bytes = digits ++ rest ∧ (∀ byte ∈ digits, isAsciiDigit byte = true) ∧
      count + digits.length ≤ maxPhpNumericDigits ∧ 0 < count + digits.length ∧
      digitsValue value digits = n ∧ n ≤ maxPhpNumericValue ∧ startsWithDigit rest = false
  | [], count, value, n, rest, h, hcnt, hvalue => by
    rw [parsePhpNumberFrom] at h
    split_ifs at h with hzero
    cases h
    exact ⟨[], rfl, by simp, by simpa using hcnt, by simpa using Nat.pos_of_ne_zero hzero, rfl,
      hvalue, rfl⟩
  | byte :: bytes, count, value, n, rest, h, hcnt, hvalue => by
    rw [parsePhpNumberFrom] at h
    split_ifs at h with hdig hfull hzero
    · cases hpush : pushPhpDigit value byte with
      | none =>
        rw [hpush] at h
        cases h
      | some next =>
        rw [hpush] at h
        obtain ⟨rfl, hbd⟩ := pushPhpDigit_eq_some.mp hpush
        obtain ⟨digits, rfl, hdigs, hlength, -, hn, hmax, hrest⟩ :=
          parsePhpNumberFrom_ok h (by omega) hbd
        refine ⟨byte :: digits, rfl, ?_, ?_, ?_, hn, hmax, hrest⟩
        · exact forall_mem_cons.mpr ⟨hdig, hdigs⟩
        · rw [length_cons]
          omega
        · rw [length_cons]
          omega
    · cases h
      exact ⟨[], rfl, by simp, by simpa using hcnt, by simpa using Nat.pos_of_ne_zero hzero, rfl,
        hvalue, by simpa [startsWithDigit] using hdig⟩

theorem parsePhpNumberFrom_eq {rest : Bytes} (hrest : startsWithDigit rest = false) :
    ∀ {digits : Bytes} {count value : Nat}, (∀ byte ∈ digits, isAsciiDigit byte = true) →
      count + digits.length ≤ maxPhpNumericDigits → 0 < count + digits.length →
      digitsValue value digits ≤ maxPhpNumericValue →
      parsePhpNumberFrom count value (digits ++ rest) = .ok (digitsValue value digits, rest)
  | [], count, value, _, _, hcnt, _ => by
    have hzero : count ≠ 0 := by simpa using Nat.ne_of_gt hcnt
    cases rest with
    | nil => rw [nil_append, parsePhpNumberFrom, if_neg hzero]; rfl
    | cons byte rest =>
      have hdig : ¬ isAsciiDigit byte = true := by simpa [startsWithDigit] using hrest
      rw [nil_append, parsePhpNumberFrom, if_neg hdig, if_neg hzero]
      rfl
  | digit :: digits, count, value, hdigs, hlength, _, hvalue => by
    obtain ⟨hdig, hdigs⟩ := forall_mem_cons.mp hdigs
    rw [length_cons] at hlength
    have hbd : value * 10 + digitValue digit ≤ maxPhpNumericValue :=
      le_trans (le_digitsValue digits _) hvalue
    have hpush : pushPhpDigit value digit = some (value * 10 + digitValue digit) :=
      pushPhpDigit_eq_some.mpr ⟨rfl, hbd⟩
    rw [cons_append, parsePhpNumberFrom, if_pos hdig, if_neg (by omega), hpush]
    exact parsePhpNumberFrom_eq hrest hdigs (by omega) (by omega) hvalue

variable {n : Nat} {numbers : List Nat}

/-- A number is read as far as it goes. -/
theorem parsePhpNumber_ok {bytes rest : Bytes} (h : parsePhpNumber bytes = .ok (n, rest)) :
    ∃ text, bytes = text ++ rest ∧ NumberText text n ∧ startsWithDigit rest = false := by
  obtain ⟨text, hbs, hdigs, hlength, hpos, hvalue, hbd, hrest⟩ :=
    parsePhpNumberFrom_ok h (by decide) (by decide)
  refine ⟨text, hbs, ⟨?_, hdigs, by simpa using hlength, hvalue, hbd⟩, hrest⟩
  rintro rfl
  simp at hpos

theorem NumberText.parse {text rest : Bytes} (h : NumberText text n)
    (hrest : startsWithDigit rest = false) : parsePhpNumber (text ++ rest) = .ok (n, rest) := by
  obtain ⟨hne, hdigs, hsh, rfl, hbd⟩ := h
  have hpos : 0 < text.length := length_pos_iff.mpr hne
  exact parsePhpNumberFrom_eq hrest hdigs (by simpa using hsh) (by simpa using hpos) hbd

variable {text : Bytes}

theorem NumberText.starts (h : NumberText text n)
    (rest : Bytes) : startsWithDigit (text ++ rest) = true := by
  cases text with
  | nil => exact absurd rfl h.nonempty
  | cons byte text =>
    simpa [startsWithDigit] using h.digits byte (by simp)

theorem not_separator_of_digit {byte : UInt8} (h : isAsciiDigit byte = true) :
    isPhpSeparator byte = false := by
  by_contra hsep
  simp only [isPhpSeparator, Bool.not_eq_false, Bool.or_eq_true, decide_eq_true_eq] at hsep
  obtain ((rfl | rfl) | rfl) | rfl := hsep <;> exact absurd h (by decide)

/-! ### Leading numbers -/

theorem NumbersText.starts (h : NumbersText text numbers) (rest : Bytes) :
    startsWithDigit (text ++ rest) = true := by
  cases h with
  | one h => exact h.starts rest
  | more h hseparator hrest =>
    rw [append_assoc]
    exact h.starts _

/-- What the loop over the leading numbers reads. -/
theorem parsePhpComponents_ok : ∀ {room : Nat} {bytes : Bytes} {numbers : List Nat}
    {suffix : Option Bytes}, parsePhpComponents room bytes = .ok (numbers, suffix) →
    numbers.length ≤ room ∧ ∃ text, NumbersText text numbers ∧
      match suffix with
      | none => bytes = text
      | some suffix => ∃ separator, OptionalSeparator separator ∧
          bytes = text ++ (separator ++ suffix)
  | 0, bytes, numbers, suffix, h => by cases h
  | room + 1, bytes, numbers, suffix, h => by
    rw [parsePhpComponents] at h
    obtain ⟨⟨n, rest⟩, hnumber, hread⟩ := bind_ok h
    obtain ⟨text, rfl, htext, -⟩ := parsePhpNumber_ok hnumber
    dsimp only at hread
    split at hread
    · cases hread
      exact ⟨by simp, text, .one htext, by simp⟩
    · rename_i byte after
      split_ifs at hread with hseparator
      · split at hread
        · cases hread
        · rename_i next tail
          split_ifs at hread with hdig
          · obtain ⟨⟨numbers', suffix'⟩, hmore, hread⟩ := bind_ok hread
            cases hread
            obtain ⟨hlength, text', hnums, htail⟩ := parsePhpComponents_ok hmore
            refine ⟨by simpa using hlength, text ++ byte :: text', .more htext hseparator hnums, ?_⟩
            cases suffix' with
            | none => simpa using htail
            | some suffix =>
              obtain ⟨separator, hopt, heq⟩ := htail
              exact ⟨separator, hopt, by rw [heq]; simp⟩
          · cases hread
            exact ⟨by simp, text, .one htext, [byte], .some hseparator, by simp⟩
      · cases hread
        exact ⟨by simp, text, .one htext, [], .none, by simp⟩

/-- The leading numbers are read if the last of them is. -/
theorem NumbersText.parse {tail : Bytes} {suffix : Option Bytes}
    (hlast : ∀ {text : Bytes} {n room : Nat}, NumberText text n →
      parsePhpComponents (room + 1) (text ++ tail) = .ok ([n], suffix))
    {text : Bytes} (h : NumbersText text numbers) :
    ∀ {room : Nat}, numbers.length ≤ room →
      parsePhpComponents room (text ++ tail) = .ok (numbers, suffix) := by
  induction h with
  | one h =>
    intro room hroom
    obtain ⟨room, rfl⟩ := Nat.exists_eq_add_of_le' hroom
    exact hlast h
  | @more text rest n numbers separator h hseparator hrest ih =>
    intro room hroom
    obtain ⟨room, rfl⟩ : ∃ k, room = k + 1 := Nat.exists_eq_add_of_le' (by simp at hroom; omega)
    have hsta : startsWithDigit (separator :: (rest ++ tail)) = false := by
      by_contra hdig
      have hdig : isAsciiDigit separator = true := by simpa [startsWithDigit] using hdig
      exact absurd (not_separator_of_digit hdig) (by simp [hseparator])
    have hnumber := h.parse hsta
    have hmore := ih (Nat.le_of_succ_le_succ hroom)
    have hdig := hrest.starts tail
    rw [append_assoc, cons_append, parsePhpComponents, hnumber]
    cases hbs : rest ++ tail with
    | nil => simp [hbs, startsWithDigit] at hdig
    | cons next bytes =>
      rw [hbs] at hdig hmore
      have hnext : isAsciiDigit next = true := by simpa [startsWithDigit] using hdig
      simp only [bind, Except.bind, if_pos hseparator, if_pos hnext, hmore, pure, Except.pure]

theorem parsePhpComponents_end {n room : Nat} (h : NumberText text n) :
    parsePhpComponents (room + 1) (text ++ []) = .ok ([n], none) := by
  rw [parsePhpComponents, h.parse rfl]
  rfl

/-- Whether a text begins with a byte that is neither a digit nor a separator. -/
def startsWithLetter (text : Bytes) : Bool :=
  text.head?.any fun byte => !isAsciiDigit byte && !isPhpSeparator byte

theorem parsePhpComponents_suffix {text separator suffix : Bytes} {n room : Nat}
    (h : NumberText text n) (hseparator : OptionalSeparator separator)
    (hsuffix : startsWithLetter suffix = true) :
    parsePhpComponents (room + 1) (text ++ (separator ++ suffix)) = .ok ([n], some suffix) := by
  cases suffix with
  | nil => cases hsuffix
  | cons byte suffix =>
    obtain ⟨hdig, hletter⟩ : isAsciiDigit byte = false ∧ isPhpSeparator byte = false := by
      simpa [startsWithLetter] using hsuffix
    cases hseparator with
    | none =>
      have hsta : startsWithDigit (byte :: suffix) = false := by
        simpa [startsWithDigit] using hdig
      rw [nil_append, parsePhpComponents, h.parse hsta]
      simp [bind, Except.bind, hletter, pure, Except.pure]
    | @some separator hseparator =>
      have hsta : startsWithDigit ([separator] ++ byte :: suffix) = false := by
        by_contra hdig
        have hdig : isAsciiDigit separator = true := by simpa [startsWithDigit] using hdig
        exact absurd (not_separator_of_digit hdig) (by simp [hseparator])
      rw [parsePhpComponents, h.parse hsta]
      simp [bind, Except.bind, hseparator, hdig, pure, Except.pure]

/-! ### Stages -/

theorem parsePhpSuffix_ok {bytes rest : Bytes} {stage : PhpReleaseStage}
    (h : parsePhpSuffix bytes = .ok (stage, rest)) :
    ∃ text, (text, stage) ∈ phpSuffixes ∧ bytes = text ++ rest := by
  unfold parsePhpSuffix at h
  split at h
  · rename_i suffix hfind
    cases h
    have hmem := mem_of_find?_eq_some hfind
    have hpre : suffix.1 <+: bytes := by
      simpa using find?_some (p := fun suffix : Bytes × PhpReleaseStage =>
        suffix.1.isPrefixOf bytes) hfind
    exact ⟨suffix.1, hmem, (prefix_iff_eq_append.mp hpre).symm⟩
  · cases h

/-- A stage is read before the end, a digit or a separator. -/
theorem parsePhpSuffix_eq {text rest : Bytes} {stage : PhpReleaseStage}
    (h : (text, stage) ∈ phpSuffixes) (hrest : startsWithLetter rest = false) :
    parsePhpSuffix (text ++ rest) = .ok (stage, rest) := by
  cases rest with
  | nil => fin_cases h <;> rfl
  | cons byte rest =>
    have hl : ((108 : UInt8) == byte) = false := by
      refine beq_false_of_ne ?_
      rintro rfl
      cases hrest
    have he : ((101 : UInt8) == byte) = false := by
      refine beq_false_of_ne ?_
      rintro rfl
      cases hrest
    fin_cases h <;> simp [parsePhpSuffix, phpSuffixes, find?, isPrefixOf, hl, he]

theorem not_startsWithLetter_counter {separator number : Bytes}
    (hseparator : OptionalSeparator separator) (h : NumberText number n) :
    startsWithLetter (separator ++ number) = false := by
  cases hseparator with
  | none =>
    cases number with
    | nil => exact absurd rfl h.nonempty
    | cons byte number => simp [startsWithLetter, h.digits byte (by simp)]
  | some hseparator => simp [startsWithLetter, hseparator]

theorem parsePhpCounter_ok {bytes : Bytes} {counter : Option Nat}
    (h : parsePhpCounter bytes = .ok counter) :
    (bytes = [] ∧ counter = none) ∨ ∃ separator number n, OptionalSeparator separator ∧
      NumberText number n ∧ bytes = separator ++ number ∧ counter = some n := by
  cases bytes with
  | nil =>
    cases h
    exact Or.inl ⟨rfl, rfl⟩
  | cons byte after =>
    rw [parsePhpCounter] at h
    by_cases hlone : isPhpSeparator byte = true ∧ after.isEmpty = true
    · rw [if_pos hlone] at h
      cases h
    rw [if_neg hlone] at h
    obtain ⟨⟨n, rest⟩, hnumber, hread⟩ := bind_ok h
    dsimp only at hread
    split_ifs at hread with hend
    · cases hread
    cases hread
    obtain ⟨number, hbs, hnumber, -⟩ := parsePhpNumber_ok hnumber
    rw [not_not.mp hend, append_nil] at hbs
    refine Or.inr ?_
    split_ifs at hbs with hseparator
    · exact ⟨[byte], number, n, .some hseparator, hnumber, by rw [← hbs]; rfl, rfl⟩
    · exact ⟨[], number, n, .none, hnumber, by rw [← hbs]; rfl, rfl⟩

theorem parsePhpCounter_eq {separator number : Bytes} (hseparator : OptionalSeparator separator)
    (h : NumberText number n) :
    parsePhpCounter (separator ++ number) = .ok (some n) := by
  have hnumber := @NumberText.parse _ _ [] h rfl
  rw [append_nil] at hnumber
  have hne : number.isEmpty = false := by simpa using h.nonempty
  cases hseparator with
  | none =>
    cases number with
    | nil => exact absurd rfl h.nonempty
    | cons byte number =>
      have hbyte : isPhpSeparator byte = false := not_separator_of_digit (h.digits byte (by simp))
      rw [nil_append, parsePhpCounter]
      simp [hbyte, hnumber, bind, Except.bind, pure, Except.pure]
  | some hseparator =>
    rw [singleton_append, parsePhpCounter]
    simp [hseparator, hne, hnumber, bind, Except.bind, pure, Except.pure]

/-! ### Releases -/

/-- A byte of the printable ASCII characters. -/
def isPrintable (byte : UInt8) : Bool := 32 ≤ byte && byte < 127

theorem isPrintable_digit {byte : UInt8} (h : isAsciiDigit byte = true) : isPrintable byte = true := by
  simp only [isAsciiDigit, isPrintable, Bool.and_eq_true, decide_eq_true_eq, UInt8.le_iff_toNat_le,
    UInt8.lt_iff_toNat_lt] at h ⊢
  exact ⟨le_trans (by decide) h.1, lt_of_le_of_lt h.2 (by decide)⟩

theorem isPrintable_separator {byte : UInt8} (h : isPhpSeparator byte = true) :
    isPrintable byte = true := by
  simp only [isPhpSeparator, Bool.or_eq_true, decide_eq_true_eq] at h
  obtain ((rfl | rfl) | rfl) | rfl := h <;> decide

theorem NumberText.printable (h : NumberText text n) :
    ∀ byte ∈ text, isPrintable byte = true :=
  fun byte hmem => isPrintable_digit (h.digits byte hmem)

theorem NumbersText.printable (h : NumbersText text numbers) : ∀ byte ∈ text,
    isPrintable byte = true := by
  induction h with
  | one h => exact h.printable
  | more h hseparator hrest ih =>
    intro byte hmem
    rcases mem_append.mp hmem with hmem | hmem
    · exact h.printable byte hmem
    · rcases mem_cons.mp hmem with rfl | hmem
      · exact isPrintable_separator hseparator
      · exact ih byte hmem

theorem OptionalSeparator.printable (h : OptionalSeparator text) :
    ∀ byte ∈ text, isPrintable byte = true := by
  cases h with
  | none => simp
  | some h => simpa using isPrintable_separator h

theorem printable_suffix {stage : PhpReleaseStage}
    (h : (text, stage) ∈ phpSuffixes) : ∀ byte ∈ text, isPrintable byte = true := by
  have hall : ∀ entry ∈ phpSuffixes, ∀ byte ∈ entry.1, isPrintable byte = true := by
    decide +kernel
  exact hall _ h

theorem SuffixText.printable {stage : PhpReleaseStage} {counter : Option Nat}
    (h : SuffixText text stage counter) : ∀ byte ∈ text, isPrintable byte = true := by
  cases h with
  | plain h => exact printable_suffix h
  | counted h hseparator hnumber =>
    simp only [mem_append]
    rintro byte (hmem | hmem | hmem)
    · exact printable_suffix h byte hmem
    · exact hseparator.printable byte hmem
    · exact hnumber.printable byte hmem

theorem ReleaseText.printable {version : PhpReleaseSubsetVersion}
    (h : ReleaseText text version) : ∀ byte ∈ text, isPrintable byte = true := by
  cases h with
  | final h => exact h.printable
  | staged h hseparator hsuffix =>
    simp only [mem_append]
    rintro byte (hmem | hmem | hmem)
    · exact h.printable byte hmem
    · exact hseparator.printable byte hmem
    · exact hsuffix.printable byte hmem

theorem ReleaseText.ne_nil {version : PhpReleaseSubsetVersion}
    (h : ReleaseText text version) : text ≠ [] := by
  have hnums {text : Bytes} {numbers : List Nat} (h : NumbersText text numbers) :
      text ≠ [] := by
    rintro rfl
    exact absurd (h.starts []) (by decide)
  cases h with
  | final h => exact hnums h
  | staged h _ _ => simp [hnums h]

/-- A text of printable bytes passes the first checks. -/
theorem not_refused {bytes : Bytes} (hne : bytes ≠ [])
    (hlength : bytes.length ≤ maxWordpressVersionBytes)
    (hprin : ∀ byte ∈ bytes, isPrintable byte = true) :
    ¬ (bytes.isEmpty ∨ maxWordpressVersionBytes < bytes.length ∨ bytes.any (127 < ·) ∨
      bytes.any fun byte => byte < 32 || byte = 127) := by
  have hbounds {byte : UInt8} (hmem : byte ∈ bytes) : 32 ≤ byte.toNat ∧ byte.toNat < 127 := by
    have h := hprin byte hmem
    simpa [isPrintable, UInt8.le_iff_toNat_le, UInt8.lt_iff_toNat_lt] using h
  simp only [List.isEmpty_iff, hne, List.any_eq_true, decide_eq_true_eq, Bool.or_eq_true,
    UInt8.lt_iff_toNat_lt, false_or, not_or, not_lt, not_exists, not_and]
  refine ⟨hlength, fun byte hmem => ?_, fun byte hmem => ⟨?_, ?_⟩⟩
  · exact le_trans (Nat.le_of_lt (hbounds hmem).2) (by decide)
  · exact (hbounds hmem).1
  · rintro rfl
    exact absurd (hbounds hmem).2 (by decide)

namespace PhpReleaseSubsetVersion

/-- **The parser accepts the grammar.** A text is read as a version exactly if it
is a release of at most eight numbers and 64 bytes that stands for it. -/
theorem parse_eq_ok_iff {value : String} {version : PhpReleaseSubsetVersion} :
    parse value = .ok version ↔ (utf8Bytes value).length ≤ maxWordpressVersionBytes ∧
      version.components.length ≤ maxWordpressVersionComponents ∧
      ReleaseText (utf8Bytes value) version := by
  constructor
  · intro h
    simp only [parse] at h
    split at h
    · cases h
    rename_i hrefused
    have hlength : (utf8Bytes value).length ≤ maxWordpressVersionBytes :=
      Nat.le_of_not_lt fun hlong => hrefused (Or.inr (Or.inl hlong))
    obtain ⟨⟨components, remaining⟩, hcomp, hread⟩ := bind_ok h
    obtain ⟨hcnt, text, hnums, hbs⟩ := parsePhpComponents_ok hcomp
    dsimp only at hread
    split at hread
    · cases hread
      exact ⟨hlength, hcnt, hbs ▸ .final hnums⟩
    · rename_i remaining
      obtain ⟨⟨stage, rest⟩, hsuffix, hread⟩ := bind_ok hread
      obtain ⟨counter, hcoun, hread⟩ := bind_ok hread
      cases hread
      obtain ⟨separator, hseparator, hbs⟩ := hbs
      obtain ⟨suffix, hmem, rfl⟩ := parsePhpSuffix_ok hsuffix
      refine ⟨hlength, hcnt, hbs ▸ .staged hnums hseparator ?_⟩
      obtain ⟨rfl, rfl⟩ | ⟨separator', number, n, hseparator', hnumber, rfl, rfl⟩ :=
        parsePhpCounter_ok hcoun
      · rw [append_nil]
        exact .plain hmem
      · exact .counted hmem hseparator' hnumber
  · rintro ⟨hlength, hcnt, h⟩
    have hrefused := not_refused h.ne_nil hlength h.printable
    generalize hbs : utf8Bytes value = bytes at *
    unfold parse
    simp only [hbs]
    rw [if_neg hrefused]
    cases h with
    | @final text numbers h =>
      have hcomp := h.parse parsePhpComponents_end hcnt
      rw [append_nil] at hcomp
      rw [hcomp]
      rfl
    | @staged text separator suffix numbers stage counter h hseparator hsuffix =>
      have hletter {text rest : Bytes} {stage : PhpReleaseStage}
          (h : (text, stage) ∈ phpSuffixes) : startsWithLetter (text ++ rest) = true := by
        fin_cases h <;> rfl
      cases hsuffix with
      | plain hmem =>
        have hsta : startsWithLetter suffix = true := by
          simpa using @hletter _ [] _ hmem
        have hstg := @parsePhpSuffix_eq _ [] _ hmem rfl
        rw [append_nil] at hstg
        rw [h.parse (fun hnumber => parsePhpComponents_suffix hnumber hseparator hsta) hcnt]
        simp only [bind, Except.bind, hstg]
        rfl
      | counted hmem hseparator' hnumber =>
        rw [h.parse (fun hn => parsePhpComponents_suffix hn hseparator (hletter hmem)) hcnt]
        simp only [bind, Except.bind,
          parsePhpSuffix_eq hmem (not_startsWithLetter_counter hseparator' hnumber),
          parsePhpCounter_eq hseparator' hnumber]
        rfl

end PhpReleaseSubsetVersion

/-- The numbers of a text and the version read from it compare alike. -/
theorem NumericDottedVersion.cmp_parse {left right : String} {self other : NumericDottedVersion}
    {numbers numbers' : List Nat} (hself : parse left = .ok self) (hoth : parse right = .ok other)
    (hnums : parseNumbers left = .ok numbers) (hnums' : parseNumbers right = .ok numbers') :
    cmp self other = comparePadded numbers numbers' := by
  have hread {value : String} {version : NumericDottedVersion} {numbers : List Nat}
      (h : parse value = .ok version) (hnums : parseNumbers value = .ok numbers) :
      ∃ hne, version = ofComponents numbers hne := by
    unfold parse at h
    obtain ⟨components, hcomp, hread⟩ := bind_ok h
    cases hnums.symm.trans hcomp
    split at hread
    · rename_i hne
      cases hread
      exact ⟨hne, rfl⟩
    · cases hread
  obtain ⟨hne, rfl⟩ := hread hself hnums
  obtain ⟨hne', rfl⟩ := hread hoth hnums'
  rw [cmp_eq_padded, comparePadded_ofComponents]

/-- **Versions are ordered.** The order of PHP releases is total: reflexive,
antisymmetric up to its own equality, transitive, and equal exactly on the same
sequences of parts. Its parser accepts the releases of the grammar and reads
them as the versions they stand for. Dotted numbers are ordered and equal as
their components padded with zeros, those of the text as well. -/
theorem version_order_correct :
    (∀ u v w : PhpReleaseSubsetVersion, u.cmp u = .eq ∧ u.cmp v = (v.cmp u).swap ∧
      ((u.cmp v).isLE ∨ (v.cmp u).isLE) ∧
      ((u.cmp v).isLE → (v.cmp u).isLE → u.eq v = true) ∧
      ((u.cmp v).isLE → (v.cmp w).isLE → (u.cmp w).isLE) ∧
      (u.eq v = true ↔ u.cmp v = .eq) ∧ (u.cmp v = .eq ↔ u.tokens = v.tokens)) ∧
    (∀ value version, parse value = .ok version ↔
      (utf8Bytes value).length ≤ maxWordpressVersionBytes ∧
      version.components.length ≤ maxWordpressVersionComponents ∧
      ReleaseText (utf8Bytes value) version) ∧
    (∀ v w : NumericDottedVersion, v.cmp w = comparePadded v.components w.components ∧
      (v = w ↔ comparePadded v.components w.components = .eq)) ∧
    ∀ left right v w numbers numbers', NumericDottedVersion.parse left = .ok v →
      NumericDottedVersion.parse right = .ok w → NumericDottedVersion.parseNumbers left = .ok numbers →
      NumericDottedVersion.parseNumbers right = .ok numbers' →
      v.cmp w = comparePadded numbers numbers' := by
  have hswap (u v : PhpReleaseSubsetVersion) : v.cmp u = (u.cmp v).swap := Std.OrientedCmp.eq_swap
  refine ⟨fun u v w => ⟨Std.ReflCmp.compare_self, hswap v u, ?_, ?_, ?_, ?_, ?_⟩,
    fun _ _ => parse_eq_ok_iff, fun v w => ⟨v.cmp_eq_padded w, ?_⟩,
    fun _ _ _ _ _ _ => NumericDottedVersion.cmp_parse⟩
  · rw [hswap u v]
    cases u.cmp v <;> decide
  · intro huv hvu
    rw [hswap u v] at hvu
    unfold eq
    cases hcmp : u.cmp v with
    | eq => rfl
    | lt =>
      rw [hcmp] at hvu
      cases hvu
    | gt =>
      rw [hcmp] at huv
      cases huv
  · exact Std.TransCmp.isLE_trans
  · exact decide_eq_true_iff
  · exact u.cmp_eq_eq_iff v
  · rw [← NumericDottedVersion.cmp_eq_padded, NumericDottedVersion.cmp_eq_eq_iff]

/-- A candidate is before its release, and the release before its patch. -/
theorem version_order_correct_candidate :
    (cmp ⟨[1, 0], some .rc, some 1⟩ ⟨[1, 0], some .patchLevel, none⟩).isLE ∧
    NumericDottedVersion.parseNumbers "1.0" = .ok [1, 0] ∧
    ∃ v, NumericDottedVersion.parse "1.0" = .ok v ∧ v.cmp v = comparePadded [1, 0] [1, 0] := by
  have hcand : (cmp ⟨[1, 0], some .rc, some 1⟩
      ⟨[1, 0], none, none⟩).isLE := by
    rw [cmp_eq_compareLex]
    decide
  have hpatch : (cmp ⟨[1, 0], none, none⟩
      ⟨[1, 0], some .patchLevel, none⟩).isLE := by
    rw [cmp_eq_compareLex]
    decide
  have hnums : NumericDottedVersion.parseNumbers "1.0" = .ok [1, 0] := by decide +kernel
  have hprs : NumericDottedVersion.parse "1.0" = .ok (.ofComponents [1, 0] (by decide)) := by
    decide +kernel
  exact ⟨(version_order_correct.1 _ _ _).2.2.2.2.1 hcand hpatch, hnums, _, hprs,
    version_order_correct.2.2.2 _ _ _ _ _ _ hprs hprs hnums hnums⟩

/-- A separator that nothing follows is refused. -/
theorem trailing_separator_refused : ¬ ∀ (value : String) (text separator : Bytes)
    (numbers : List Nat), NumbersText text numbers → OptionalSeparator separator →
    numbers.length ≤ maxWordpressVersionComponents →
    (utf8Bytes value).length ≤ maxWordpressVersionBytes → utf8Bytes value = text ++ separator →
    ∃ version, parse value = .ok version := by
  intro h
  have hone : NumberText [49] 1 := ⟨by simp, by decide +kernel, by decide, rfl, by decide⟩
  obtain ⟨version, hprs⟩ := h "1." [49] [46] [1] (.one hone) (.some (by decide)) (by decide)
    (by decide +kernel) (by decide +kernel)
  have hrefused : parse "1." = .error .mk := by decide +kernel
  cases hrefused.symm.trans hprs

end Termivar
