/-
# Reading JSON

A recursive-descent reader of JSON texts. It reads exactly the texts of the
grammar, each as its one value (`read_eq_some`).
-/
import Termivar.Json

namespace Termivar.Json

open List

/-- Without the whitespace in front. -/
def skip (bytes : Bytes) : Bytes := bytes.dropWhile isWs

/-- The character that the front of a text encodes. -/
def decodeChar (bytes : Bytes) : Option Char := (bytes.take 4).toByteArray.utf8DecodeChar? 0

/-- The second half of a surrogate pair. -/
def readLow (high : Nat) : Bytes → Option (Char × Bytes)
  | 92 :: 117 :: x :: y :: z :: w :: rest =>
    match hex4 x y z w with
    | some low =>
      if 0xDC00 ≤ low ∧ low ≤ 0xDFFF then some (Char.ofNat (surrogates high low), rest) else none
    | none => none
  | _ => none

/-- The escape with four hexadecimal digits, after its letter. -/
def readUnicode : Bytes → Option (Char × Bytes)
  | x :: y :: z :: w :: rest =>
    match hex4 x y z w with
    | some code =>
      if code.isValidChar then some (Char.ofNat code, rest)
      else if 0xD800 ≤ code ∧ code ≤ 0xDBFF then readLow code rest
      else none
    | none => none
  | _ => none

/-- An escape, after the backslash. -/
def readEscape : Bytes → Option (Char × Bytes)
  | [] => none
  | byte :: rest =>
    if byte = 117 then readUnicode rest
    else (escapes.find? fun e => e.2 = byte).map fun e => (e.1, rest)

/-- The characters of a string up to its quote. -/
def readChars : Nat → Bytes → Option (List Char × Bytes)
  | 0, _ => none
  | _ + 1, [] => none
  | fuel + 1, byte :: rest =>
    if byte = 34 then some ([], rest)
    else if byte = 92 then do
      let (c, rest) ← readEscape rest
      let (cs, rest) ← readChars fuel rest
      return (c :: cs, rest)
    else do
      let c ← decodeChar (byte :: rest)
      if c.toNat < 0x20 then none
      else
        let (cs, rest) ← readChars fuel ((byte :: rest).drop c.utf8Size)
        return (c :: cs, rest)

/-- A string after its first quote. -/
def readString (bytes : Bytes) : Option (String × Bytes) :=
  (readChars (bytes.length + 1) bytes).map fun (cs, rest) => (String.ofList cs, rest)

/-- A number. -/
def readNumber (bytes : Bytes) : Option (Json × Bytes) :=
  let lexeme := bytes.takeWhile isNumberByte
  if isNumber lexeme then some (.number lexeme, bytes.dropWhile isNumberByte) else none

/-- A word with its value. -/
def readWord (word : Bytes) (value : Json) (bytes : Bytes) : Option (Json × Bytes) :=
  if word <+: bytes then some (value, bytes.drop word.length) else none

mutual

/-- A value at the front of a text, and the rest of the text. -/
def readValue : Nat → Bytes → Option (Json × Bytes)
  | 0, _ => none
  | _ + 1, [] => none
  | fuel + 1, byte :: rest =>
    if byte = 34 then (readString rest).map fun (value, rest) => (.string value, rest)
    else if byte = 91 then
      if (skip rest).head? = some 93 then some (.array [], (skip rest).tail)
      else (readItems fuel rest).map fun (items, rest) => (.array items, rest)
    else if byte = 123 then
      if (skip rest).head? = some 125 then some (.object [], (skip rest).tail)
      else (readMembers fuel rest).map fun (members, rest) => (.object members, rest)
    else if byte = 110 then readWord nullText .null (byte :: rest)
    else if byte = 116 then readWord (boolText true) (.bool true) (byte :: rest)
    else if byte = 102 then readWord (boolText false) (.bool false) (byte :: rest)
    else readNumber (byte :: rest)

/-- The items of an array and its bracket. -/
def readItems : Nat → Bytes → Option (List Json × Bytes)
  | 0, _ => none
  | fuel + 1, bytes =>
    match readValue fuel (skip bytes) with
    | none => none
    | some (x, rest) =>
      match skip rest with
      | [] => none
      | byte :: rest =>
        if byte = 93 then some ([x], rest)
        else if byte = 44 then (readItems fuel rest).map fun (xs, rest) => (x :: xs, rest)
        else none

/-- The members of an object and its brace. -/
def readMembers : Nat → Bytes → Option (List (String × Json) × Bytes)
  | 0, _ => none
  | fuel + 1, bytes =>
    match skip bytes with
    | [] => none
    | byte :: rest =>
      if byte = 34 then
        match readString rest with
        | none => none
        | some (name, rest) =>
          match skip rest with
          | [] => none
          | byte :: rest =>
            if byte = 58 then
              match readValue fuel (skip rest) with
              | none => none
              | some (x, rest) =>
                match skip rest with
                | [] => none
                | byte :: rest =>
                  if byte = 125 then some ([(name, x)], rest)
                  else if byte = 44 then
                    (readMembers fuel rest).map fun (xs, rest) => ((name, x) :: xs, rest)
                  else none
            else none
      else none

end

/-- The value of a whole text. -/
def read (bytes : Bytes) : Option Json :=
  match readValue (bytes.length + 1) (skip bytes) with
  | some (value, rest) => if (skip rest).isEmpty then some value else none
  | none => none

example : (read (String.toUTF8 "\x7b\"a\": [1, \"\\u00e9\"]\x7d").data.toList).isSome = true := by
  decide +kernel

/-! ### Whitespace -/

theorem Blank.nil : Blank [] := by simp [Blank]

theorem Blank.append {v w : Bytes} (hv : Blank v) (hw : Blank w) : Blank (v ++ w) := by
  intro byte hbyte
  exact (mem_append.mp hbyte).elim (hv byte) (hw byte)

variable {bytes rest : Bytes} {c : Char} {w : Bytes}

theorem skip_blank (hw : Blank w) (bytes : Bytes) :
    skip (w ++ bytes) = skip bytes := by
  rw [skip, dropWhile_append_of_pos hw]
  rfl

theorem skip_of_not_ws {byte : UInt8} (h : isWs byte = false) (bytes : Bytes) :
    skip (byte :: bytes) = byte :: bytes := by
  simp [skip, h]

theorem exists_skip (bytes : Bytes) : ∃ w, Blank w ∧ bytes = w ++ skip bytes :=
  ⟨bytes.takeWhile isWs, fun _ hbyte => mem_takeWhile_imp hbyte, takeWhile_append_dropWhile.symm⟩

theorem skip_eq_nil : skip bytes = [] ↔ Blank bytes := by
  simp [skip, dropWhile_eq_nil_iff, Blank]

/-! ### Characters -/

theorem decodeChar_encode (c : Char) (rest : Bytes) :
    decodeChar (String.utf8EncodeChar c ++ rest) = some c := by
  have hlen : (String.utf8EncodeChar c).length ≤ 4 := by
    rw [String.length_utf8EncodeChar]
    exact c.utf8Size_le_four
  rw [decodeChar, take_append, take_of_length_le hlen, toByteArray_append]
  exact ByteArray.utf8DecodeChar?_utf8EncodeChar_append

theorem decodeChar_eq_some (h : decodeChar bytes = some c) :
    bytes = String.utf8EncodeChar c ++ bytes.drop c.utf8Size := by
  obtain ⟨tail, htail⟩ := ByteArray.exists_of_utf8DecodeChar?_eq_some h
  have hlist : bytes.take 4 = String.utf8EncodeChar c ++ tail.data.toList := by
    have := congrArg (fun b : ByteArray => b.data.toList) htail
    simpa using this
  have hbs : bytes = String.utf8EncodeChar c ++ (tail.data.toList ++ bytes.drop 4) := by
    rw [← append_assoc, ← hlist, take_append_drop]
  have hdrop : bytes.drop c.utf8Size = tail.data.toList ++ bytes.drop 4 := by
    rw [← String.length_utf8EncodeChar]
    nth_rewrite 1 [hbs]
    exact drop_left
  rw [hdrop]
  exact hbs

theorem le_ofNat_add {n k : Nat} (h : n + k < 256) (hk : 128 ≤ k) : 0x80 ≤ UInt8.ofNat (n + k) := by
  rw [UInt8.le_iff_toNat_le, UInt8.toNat_ofNat']
  have hmod : (n + k) % 2 ^ 8 = n + k := Nat.mod_eq_of_lt h
  rw [hmod]
  change 128 ≤ n + k
  omega

/-- A byte of a character outside of ASCII is at least 128. -/
theorem encode_cases (c : Char) :
    (c.toNat < 0x80 ∧ String.utf8EncodeChar c = [UInt8.ofNat c.toNat]) ∨
      ∀ byte ∈ String.utf8EncodeChar c, 0x80 ≤ byte := by
  unfold String.utf8EncodeChar
  simp only
  by_cases hone : c.val.toNat ≤ 0x7f
  · rw [if_pos hone]
    exact Or.inl ⟨by simp only [Char.toNat]; omega, rfl⟩
  · refine Or.inr ?_
    rw [if_neg hone]
    split_ifs <;> simp only [mem_cons, not_mem_nil, or_false, forall_eq_or_imp, forall_eq]
    · exact ⟨le_ofNat_add (by omega) (by omega), le_ofNat_add (by omega) (by omega)⟩
    · exact ⟨le_ofNat_add (by omega) (by omega), le_ofNat_add (by omega) (by omega),
        le_ofNat_add (by omega) (by omega)⟩
    · exact ⟨le_ofNat_add (by omega) (by omega), le_ofNat_add (by omega) (by omega),
        le_ofNat_add (by omega) (by omega), le_ofNat_add (by omega) (by omega)⟩

/-- No byte of a character that may stand for itself is a quote or a
backslash. -/
theorem encode_not_special (hquote : c ≠ '\x22') (hslash : c ≠ '\x5c') :
    ∀ byte ∈ String.utf8EncodeChar c, byte ≠ 34 ∧ byte ≠ 92 := by
  intro byte hbyte
  rcases encode_cases c with ⟨hsm, heq⟩ | hlarge
  · rw [heq, mem_singleton] at hbyte
    subst hbyte
    have hchar : ∀ n : Nat, n < 256 → UInt8.ofNat c.toNat = UInt8.ofNat n → c = Char.ofNat n := by
      intro n hn heq
      have hnat := congrArg UInt8.toNat heq
      simp only [UInt8.toNat_ofNat', Nat.reducePow] at hnat
      rw [Nat.mod_eq_of_lt (by omega), Nat.mod_eq_of_lt hn] at hnat
      rw [← hnat, Char.ofNat_toNat]
    exact ⟨fun h => hquote (hchar 34 (by omega) h), fun h => hslash (hchar 92 (by omega) h)⟩
  · have hle := hlarge byte hbyte
    constructor <;> rintro rfl <;> exact absurd hle (by decide)

theorem ofNat_toNat_of_valid {n : Nat} (h : n.isValidChar) : (Char.ofNat n).toNat = n := by
  rw [Char.ofNat, dif_pos h]
  rfl

theorem not_valid_of_high {n : Nat} (h : 0xD800 ≤ n ∧ n ≤ 0xDBFF) : ¬ n.isValidChar := by
  unfold Nat.isValidChar
  omega

theorem valid_surrogates {high low : Nat} (hhigh : 0xD800 ≤ high ∧ high ≤ 0xDBFF)
    (hlow : 0xDC00 ≤ low ∧ low ≤ 0xDFFF) : (surrogates high low).isValidChar := by
  unfold Nat.isValidChar surrogates
  omega

theorem readEscape_complete {first : Bytes} (h : CharText c (92 :: first))
    (rest : Bytes) : readEscape (first ++ rest) = some (c, rest) := by
  generalize hbs : 92 :: first = bytes at h
  cases h with
  | plain hcontrol hquote hslash =>
    have hspec := encode_not_special hquote hslash 92 (hbs ▸ mem_cons_self)
    exact absurd rfl hspec.2
  | escaped hmem =>
    obtain rfl := (cons.inj hbs).2
    simp only [escapes, mem_cons, Prod.mk.injEq, not_mem_nil, or_false] at hmem
    rcases hmem with ⟨rfl, rfl⟩ | ⟨rfl, rfl⟩ | ⟨rfl, rfl⟩ | ⟨rfl, rfl⟩ | ⟨rfl, rfl⟩ | ⟨rfl, rfl⟩ |
      ⟨rfl, rfl⟩ | ⟨rfl, rfl⟩ <;> rfl
  | unicode hhex =>
    obtain rfl := (cons.inj hbs).2
    have hvalid : c.toNat.isValidChar := c.valid
    simp [readEscape, readUnicode, hhex, hvalid]
  | pair hhigh hlow hhighRange hlowRange hvalue =>
    obtain rfl := (cons.inj hbs).2
    have hinv : ¬ Nat.isValidChar _ := not_valid_of_high hhighRange
    simp only [readEscape, readUnicode, readLow, cons_append, nil_append, if_true, hhigh,
      hlow, if_neg hinv, if_pos hhighRange, if_pos hlowRange, ← hvalue, Char.ofNat_toNat]

theorem readLow_sound {high : Nat} (h : readLow high bytes = some (c, rest)) : ∃ x y z w low,
    bytes = [92, 117, x, y, z, w] ++ rest ∧ hex4 x y z w = some low ∧
    (0xDC00 ≤ low ∧ low ≤ 0xDFFF) ∧ c = Char.ofNat (surrogates high low) := by
  unfold readLow at h
  split at h
  · rename_i x y z w tail
    split at h
    · rename_i low hhex
      split_ifs at h with hrg
      simp only [Option.some.injEq, Prod.mk.injEq] at h
      obtain ⟨rfl, rfl⟩ := h
      exact ⟨x, y, z, w, low, rfl, hhex, hrg, rfl⟩
    · cases h
  · cases h

theorem readUnicode_sound (h : readUnicode bytes = some (c, rest)) :
    ∃ first, bytes = first ++ rest ∧ CharText c (92 :: 117 :: first) := by
  unfold readUnicode at h
  split at h
  · rename_i x y z w tail
    split at h
    · rename_i code hhex
      split_ifs at h with hvalid hrg
      · cases h
        refine ⟨[x, y, z, w], rfl, CharText.unicode ?_⟩
        rw [ofNat_toNat_of_valid hvalid]
        exact hhex
      · obtain ⟨x', y', z', w', low, rfl, hlow, hlowRange, hc⟩ := readLow_sound h
        refine ⟨[x, y, z, w, 92, 117, x', y', z', w'], rfl,
          CharText.pair hhex hlow hrg hlowRange ?_⟩
        rw [hc]
        exact ofNat_toNat_of_valid (valid_surrogates hrg hlowRange)
    · cases h
  · cases h

theorem readEscape_sound (h : readEscape bytes = some (c, rest)) :
    ∃ first, bytes = first ++ rest ∧ CharText c (92 :: first) := by
  cases bytes with
  | nil => cases h
  | cons byte tail =>
    rw [readEscape] at h
    split_ifs at h with hunic
    · subst hunic
      obtain ⟨first, rfl, htext⟩ := readUnicode_sound h
      exact ⟨117 :: first, rfl, htext⟩
    · obtain ⟨⟨c', byte'⟩, hfind, hpair⟩ := Option.map_eq_some_iff.mp h
      have hmem := mem_of_find?_eq_some hfind
      have hbyte := find?_some hfind
      simp only [decide_eq_true_eq] at hbyte
      simp only [Prod.mk.injEq] at hpair
      obtain ⟨rfl, rfl⟩ := hpair
      exact ⟨[byte], rfl, CharText.escaped (hbyte ▸ hmem)⟩

/-! ### Strings -/

/-- A character text is not empty, and it starts a new character. -/
theorem CharText.cases_head {first : Bytes} (h : CharText c first) :
    (∃ tail, first = 92 :: tail) ∨
      (0x20 ≤ c.toNat ∧ c ≠ '\x22' ∧ c ≠ '\x5c' ∧ first = String.utf8EncodeChar c) := by
  cases h with
  | plain hcontrol hquote hslash => exact Or.inr ⟨hcontrol, hquote, hslash, rfl⟩
  | escaped hmem => exact Or.inl ⟨_, rfl⟩
  | unicode hhex => exact Or.inl ⟨_, rfl⟩
  | pair => exact Or.inl ⟨_, rfl⟩

theorem readChars_complete {cs : List Char} {body : Bytes} {fuel : Nat}
    (h : CharsText cs body) (hfuel : body.length < fuel) (rest : Bytes) :
    readChars fuel (body ++ 34 :: rest) = some (cs, rest) := by
  induction cs generalizing body fuel with
  | nil =>
    obtain rfl : body = [] := h
    obtain ⟨fuel, rfl⟩ := Nat.exists_eq_add_of_lt hfuel
    simp [readChars]
  | cons c cs ih =>
    obtain ⟨first, more, rfl, hfirst, hmore⟩ := h
    obtain ⟨fuel, rfl⟩ : ∃ n, fuel = n + 1 := ⟨fuel - 1, by omega⟩
    rw [append_assoc]
    rcases hfirst.cases_head with ⟨tail, rfl⟩ | ⟨hcontrol, hquote, hslash, rfl⟩
    · have hrest := ih hmore (show more.length < fuel by
        simp only [cons_append, length_cons, length_append] at hfuel
        omega)
      rw [cons_append, readChars, if_neg (by decide), if_pos rfl, readEscape_complete hfirst]
      simp only [Option.bind_eq_bind, Option.bind_some, hrest]
      rfl
    · have hsize := c.utf8Size_pos
      have hlen := String.length_utf8EncodeChar c
      have hrest := ih hmore (show more.length < fuel by
        simp only [length_append] at hfuel
        omega)
      obtain ⟨byte, tail, henc⟩ := exists_cons_of_length_pos (by omega :
        0 < (String.utf8EncodeChar c).length)
      have hspec := encode_not_special hquote hslash byte (by rw [henc]; exact mem_cons_self)
      have hdecode := decodeChar_encode c (more ++ 34 :: rest)
      have hdrop : (String.utf8EncodeChar c ++ (more ++ 34 :: rest)).drop c.utf8Size =
          more ++ 34 :: rest := by
        rw [← hlen, drop_left]
      rw [henc, cons_append] at hdecode hdrop ⊢
      rw [readChars, if_neg hspec.1, if_neg hspec.2, hdecode]
      simp only [Option.bind_eq_bind, Option.bind_some, if_neg (by omega : ¬ c.toNat < 0x20), hdrop,
        hrest]
      rfl

theorem readChars_sound : ∀ {fuel : Nat} {bytes rest : Bytes} {cs : List Char},
    readChars fuel bytes = some (cs, rest) → ∃ body, bytes = body ++ 34 :: rest ∧ CharsText cs body
  | 0, _, _, _, h => by cases h
  | _ + 1, [], _, _, h => by cases h
  | fuel + 1, byte :: tail, rest, cs, h => by
    rw [readChars] at h
    split_ifs at h with hquote hslash
    · cases h
      exact ⟨[], by rw [hquote, nil_append], rfl⟩
    · simp only [Option.bind_eq_bind, Option.bind_eq_some_iff, Prod.exists, Option.pure_def,
        Option.some.injEq, Prod.mk.injEq] at h
      obtain ⟨c, middle, hescape, cs', rest', hchr, rfl, rfl⟩ := h
      obtain ⟨first, rfl, hfirst⟩ := readEscape_sound hescape
      obtain ⟨body, rfl, hbody⟩ := readChars_sound hchr
      refine ⟨92 :: first ++ body, ?_, 92 :: first, body, rfl, hfirst, hbody⟩
      rw [hslash]
      simp
    · simp only [Option.bind_eq_bind, Option.bind_eq_some_iff, Option.pure_def] at h
      obtain ⟨c, hdecode, h⟩ := h
      split_ifs at h with hcontrol
      simp only [Option.bind_eq_some_iff, Prod.exists, Option.some.injEq, Prod.mk.injEq] at h
      obtain ⟨cs', rest', hchr, rfl, rfl⟩ := h
      obtain ⟨body, hrest, hbody⟩ := readChars_sound hchr
      have hbs := decodeChar_eq_some hdecode
      rw [hrest] at hbs
      refine ⟨String.utf8EncodeChar c ++ body, by rw [hbs, append_assoc],
        String.utf8EncodeChar c, body, rfl, CharText.plain (by omega) ?_ ?_, hbody⟩
      · rintro rfl
        exact hquote (cons.inj hbs).1
      · rintro rfl
        exact hslash (cons.inj hbs).1

theorem readString_complete {value : String} (h : StringText value bytes)
    (rest : Bytes) : ∃ tail, bytes = 34 :: tail ∧ readString (tail ++ rest) = some (value, rest) := by
  obtain ⟨body, rfl, hbody⟩ := h
  refine ⟨body ++ [34], rfl, ?_⟩
  have hchr := @readChars_complete _ _ ((body ++ [34] ++ rest).length + 1) hbody
    (by simp only [length_append]; omega) rest
  rw [readString]
  simp only [append_assoc, cons_append, nil_append] at hchr ⊢
  rw [hchr]
  simp

theorem readString_sound {value : String} (h : readString bytes = some (value, rest)) :
    ∃ tail, bytes = tail ++ rest ∧ StringText value (34 :: tail) := by
  obtain ⟨⟨cs, rest'⟩, hchr, ⟨⟩⟩ := Option.map_eq_some_iff.mp h
  obtain ⟨body, rfl, hbody⟩ := readChars_sound hchr
  exact ⟨body ++ [34], by simp, body, rfl, by simpa using hbody⟩

/-! ### Values -/

/-- No number goes on into the rest of a text. -/
def Stop (rest : Bytes) : Prop := ∀ byte ∈ rest.head?, isNumberByte byte = false

theorem stop_of_ws (hw : Blank w) (hrest : Stop rest) : Stop (w ++ rest) := by
  cases w with
  | nil => exact hrest
  | cons byte w =>
    intro byte' hbyte
    cases hbyte
    have hws := hw _ mem_cons_self
    simp only [isWs, Bool.or_eq_true, decide_eq_true_eq] at hws
    rcases hws with ((rfl | rfl) | rfl) | rfl <;> decide

theorem stop_cons {byte : UInt8} (h : isNumberByte byte = false) (rest : Bytes) :
    Stop (byte :: rest) := by
  intro byte' hbyte
  cases hbyte
  exact h

/-- A byte that starts a value: no whitespace, and nothing that ends or
separates values. -/
def Starts (byte : UInt8) : Prop := isWs byte = false ∧ byte ≠ 93 ∧ byte ≠ 125

theorem number_head {lexeme : Bytes} (h : isNumber lexeme = true) :
    ∃ byte tail, lexeme = byte :: tail ∧ (byte = 45 ∨ isDigit byte = true) := by
  obtain ⟨-, hpar⟩ := Bool.and_eq_true_iff.mp h
  cases lexeme with
  | nil => cases hpar
  | cons byte tail =>
    refine ⟨byte, tail, rfl, ?_⟩
    rw [numberParts] at hpar
    split_ifs at hpar with hminus
    · exact Or.inl hminus
    · right
      by_contra hdig
      simp [unsignedParts, hdig, integerDigits, digits1] at hpar

theorem starts_of_digit {byte : UInt8} (h : byte = 45 ∨ isDigit byte = true) :
    Starts byte ∧ byte ≠ 34 ∧ byte ≠ 91 ∧ byte ≠ 123 ∧ byte ≠ 110 ∧ byte ≠ 116 ∧ byte ≠ 102 := by
  rcases h with rfl | h
  · exact ⟨⟨by decide, by decide, by decide⟩, by decide, by decide, by decide, by decide, by decide,
      by decide⟩
  · refine ⟨⟨?_, ?_, ?_⟩, ?_, ?_, ?_, ?_, ?_, ?_⟩ <;> first
      | (rintro rfl; revert h; decide)
      | skip
    by_contra hws
    simp only [isWs, Bool.not_eq_false, Bool.or_eq_true, decide_eq_true_eq] at hws
    rcases hws with ((rfl | rfl) | rfl) | rfl <;> revert h <;> decide

theorem Text.head {value : Json} {text : Bytes} (h : Text value text) :
    ∃ byte tail, text = byte :: tail ∧ Starts byte := by
  cases value with
  | null =>
    simp only [Text] at h
    exact ⟨110, _, h, by decide, by decide, by decide⟩
  | bool b =>
    simp only [Text] at h
    cases b
    · exact ⟨102, _, h, by decide, by decide, by decide⟩
    · exact ⟨116, _, h, by decide, by decide, by decide⟩
  | number lexeme =>
    simp only [Text] at h
    obtain ⟨rfl, hnumber⟩ := h
    obtain ⟨byte, tail, rfl, hbyte⟩ := number_head hnumber
    exact ⟨byte, tail, rfl, (starts_of_digit hbyte).1⟩
  | string s =>
    simp only [Text] at h
    obtain ⟨body, rfl, -⟩ := h
    exact ⟨34, _, rfl, by decide, by decide, by decide⟩
  | array items =>
    simp only [Text] at h
    obtain ⟨inner, rfl, -⟩ := h
    exact ⟨91, _, rfl, by decide, by decide, by decide⟩
  | object members =>
    simp only [Text] at h
    obtain ⟨inner, rfl, -⟩ := h
    exact ⟨123, _, rfl, by decide, by decide, by decide⟩

theorem skip_text {value : Json} {before text : Bytes} (hbef : Blank before)
    (h : Text value text) (rest : Bytes) : skip (before ++ (text ++ rest)) = text ++ rest := by
  obtain ⟨byte, tail, rfl, hstarts⟩ := h.head
  rw [skip_blank hbef, cons_append, skip_of_not_ws hstarts.1]

theorem readNumber_complete {lexeme rest : Bytes} (h : isNumber lexeme = true)
    (hstop : Stop rest) : readNumber (lexeme ++ rest) = some (.number lexeme, rest) := by
  obtain ⟨hall, -⟩ := Bool.and_eq_true_iff.mp h
  rw [all_eq_true] at hall
  have htake : rest.takeWhile isNumberByte = [] := by
    cases rest with
    | nil => rfl
    | cons byte rest => simp [hstop byte rfl]
  have hdrop : rest.dropWhile isNumberByte = rest := by
    cases rest with
    | nil => rfl
    | cons byte rest => simp [hstop byte rfl]
  rw [readNumber, takeWhile_append_of_pos hall, dropWhile_append_of_pos hall, htake, hdrop,
    append_nil]
  simp [h]

mutual

theorem readValue_complete : ∀ (value : Json) {text rest : Bytes} {fuel : Nat},
    Text value text → text.length ≤ fuel → Stop rest →
    readValue fuel (text ++ rest) = some (value, rest)
  | .null, text, rest, fuel, h, hfuel, _ => by
    simp only [Text] at h
    subst h
    obtain ⟨fuel, rfl⟩ : ∃ n, fuel = n + 1 := ⟨fuel - 1, by simp [nullText] at hfuel; omega⟩
    simp [readValue, nullText, readWord]
  | .bool b, text, rest, fuel, h, hfuel, _ => by
    simp only [Text] at h
    subst h
    obtain ⟨fuel, rfl⟩ : ∃ n, fuel = n + 1 :=
      ⟨fuel - 1, by cases b <;> simp [boolText] at hfuel <;> omega⟩
    cases b <;> simp [readValue, boolText, readWord]
  | .number lexeme, text, rest, fuel, h, hfuel, hstop => by
    simp only [Text] at h
    obtain ⟨rfl, hnumber⟩ := h
    have hread := readNumber_complete hnumber hstop
    obtain ⟨byte, tail, rfl, hbyte⟩ := number_head hnumber
    obtain ⟨fuel, rfl⟩ : ∃ n, fuel = n + 1 := ⟨fuel - 1, by simp at hfuel; omega⟩
    obtain ⟨-, h34, h91, h123, h110, h116, h102⟩ := starts_of_digit hbyte
    rw [cons_append] at hread ⊢
    rw [readValue, if_neg h34, if_neg h91, if_neg h123, if_neg h110, if_neg h116, if_neg h102, hread]
  | .string s, text, rest, fuel, h, hfuel, _ => by
    simp only [Text] at h
    obtain ⟨tail, rfl, hread⟩ := readString_complete h rest
    obtain ⟨fuel, rfl⟩ : ∃ n, fuel = n + 1 := ⟨fuel - 1, by simp at hfuel; omega⟩
    rw [cons_append, readValue, if_pos rfl, hread]
    rfl
  | .array items, text, rest, fuel, h, hfuel, _ => by
    simp only [Text] at h
    obtain ⟨inner, rfl, hinn⟩ := h
    simp only [length_cons, length_append, length_nil] at hfuel
    obtain ⟨fuel, rfl⟩ : ∃ n, fuel = n + 1 := ⟨fuel - 1, by omega⟩
    rw [cons_append, append_assoc, cons_append, nil_append, readValue,
      if_neg (by decide), if_pos rfl]
    cases items with
    | nil =>
      simp only [ItemsText] at hinn
      rw [skip_blank hinn, skip_of_not_ws (by decide)]
      rfl
    | cons x xs =>
      have hread := @readItems_complete (x :: xs) inner rest fuel (by simp) hinn (by omega)
      simp only [ItemsText] at hinn
      obtain ⟨before, text, after, hbef, -, htext, hcase⟩ := hinn
      have hskip : (skip (inner ++ 93 :: rest)).head? ≠ some 93 := by
        obtain ⟨byte, tail, rfl, hstarts⟩ := htext.head
        rcases hcase with ⟨-, rfl⟩ | ⟨more, -, rfl, -⟩ <;>
          simp only [append_assoc, cons_append, skip_blank hbef,
            skip_of_not_ws hstarts.1, head?_cons, ne_eq, Option.some.injEq] <;>
          exact hstarts.2.1
      rw [if_neg hskip, hread]
      rfl
  | .object members, text, rest, fuel, h, hfuel, _ => by
    simp only [Text] at h
    obtain ⟨inner, rfl, hinn⟩ := h
    simp only [length_cons, length_append, length_nil] at hfuel
    obtain ⟨fuel, rfl⟩ : ∃ n, fuel = n + 1 := ⟨fuel - 1, by omega⟩
    rw [cons_append, append_assoc, cons_append, nil_append, readValue,
      if_neg (by decide), if_neg (by decide), if_pos rfl]
    cases members with
    | nil =>
      simp only [MembersText] at hinn
      rw [skip_blank hinn, skip_of_not_ws (by decide)]
      rfl
    | cons x xs =>
      have hread := @readMembers_complete (x :: xs) inner rest fuel (by simp) hinn (by omega)
      obtain ⟨name, x⟩ := x
      simp only [MembersText] at hinn
      obtain ⟨before, key, middle, colon, text, after, hbef, -, -, -, ⟨body, rfl, -⟩, -, hcase⟩ :=
        hinn
      have hskip : (skip (inner ++ 125 :: rest)).head? ≠ some 125 := by
        rcases hcase with ⟨-, rfl⟩ | ⟨more, -, rfl, -⟩ <;>
          simp only [append_assoc, cons_append, skip_blank hbef,
            skip_of_not_ws (show isWs 34 = false by decide), head?_cons, ne_eq,
            Option.some.injEq] <;>
          decide
      rw [if_neg hskip, hread]
      rfl

theorem readItems_complete : ∀ (items : List Json) {inner rest : Bytes} {fuel : Nat},
    items ≠ [] → ItemsText items inner → inner.length + 1 ≤ fuel →
    readItems fuel (inner ++ 93 :: rest) = some (items, rest)
  | [], _, _, _, hne, _, _ => absurd rfl hne
  | x :: xs, inner, rest, fuel, _, h, hfuel => by
    simp only [ItemsText] at h
    obtain ⟨before, text, after, hbef, haft, htext, hcase⟩ := h
    obtain ⟨fuel, rfl⟩ : ∃ n, fuel = n + 1 := ⟨fuel - 1, by omega⟩
    rcases hcase with ⟨rfl, rfl⟩ | ⟨more, hne, rfl, hmore⟩
    · simp only [length_append] at hfuel
      have hread := @readValue_complete x text (after ++ 93 :: rest) fuel htext (by omega)
        (stop_of_ws haft (stop_cons (by decide) _))
      simp only [append_assoc, readItems, skip_text hbef htext, hread, skip_blank haft,
        skip_of_not_ws (show isWs 93 = false by decide), if_true]
    · simp only [length_append, length_cons] at hfuel
      have hread := @readValue_complete x text (after ++ 44 :: (more ++ 93 :: rest)) fuel htext
        (by omega) (stop_of_ws haft (stop_cons (by decide) _))
      have hrest := @readItems_complete xs more rest fuel hne hmore (by omega)
      simp only [append_assoc, cons_append, readItems, skip_text hbef htext, hread,
        skip_blank haft, skip_of_not_ws (show isWs 44 = false by decide), hrest]
      rfl

theorem readMembers_complete : ∀ (members : List (String × Json)) {inner rest : Bytes}
    {fuel : Nat}, members ≠ [] → MembersText members inner → inner.length + 1 ≤ fuel →
    readMembers fuel (inner ++ 125 :: rest) = some (members, rest)
  | [], _, _, _, hne, _, _ => absurd rfl hne
  | (name, x) :: xs, inner, rest, fuel, _, h, hfuel => by
    simp only [MembersText] at h
    obtain ⟨before, key, middle, colon, text, after, hbef, hmid, hcolon, haft, hkey, htext,
      hcase⟩ := h
    obtain ⟨fuel, rfl⟩ : ∃ n, fuel = n + 1 := ⟨fuel - 1, by omega⟩
    rcases hcase with ⟨rfl, rfl⟩ | ⟨more, hne, rfl, hmore⟩
    · obtain ⟨tail, rfl, hname⟩ := readString_complete hkey
        (middle ++ 58 :: (colon ++ (text ++ (after ++ 125 :: rest))))
      simp only [length_append, length_cons] at hfuel
      have hread := @readValue_complete x text (after ++ 125 :: rest) fuel htext (by omega)
        (stop_of_ws haft (stop_cons (by decide) _))
      simp only [append_assoc, cons_append, readMembers, skip_blank hbef,
        skip_of_not_ws (show isWs 34 = false by decide), if_true, hname, skip_blank hmid,
        skip_of_not_ws (show isWs 58 = false by decide), skip_text hcolon htext, hread,
        skip_blank haft, skip_of_not_ws (show isWs 125 = false by decide)]
    · obtain ⟨tail, rfl, hname⟩ := readString_complete hkey
        (middle ++ 58 :: (colon ++ (text ++ (after ++ 44 :: (more ++ 125 :: rest)))))
      simp only [length_append, length_cons] at hfuel
      have hread := @readValue_complete x text (after ++ 44 :: (more ++ 125 :: rest)) fuel htext
        (by omega) (stop_of_ws haft (stop_cons (by decide) _))
      have hrest := @readMembers_complete xs more rest fuel hne hmore (by omega)
      simp only [append_assoc, cons_append, readMembers, skip_blank hbef,
        skip_of_not_ws (show isWs 34 = false by decide), if_true, hname, skip_blank hmid,
        skip_of_not_ws (show isWs 58 = false by decide), skip_text hcolon htext, hread,
        skip_blank haft, skip_of_not_ws (show isWs 44 = false by decide), hrest]
      rfl

end

theorem readWord_sound {word bytes rest : Bytes} {value read : Json}
    (h : readWord word value bytes = some (read, rest)) : read = value ∧ bytes = word ++ rest := by
  rw [readWord] at h
  split_ifs at h with hpre
  obtain ⟨tail, rfl⟩ := hpre
  simp only [drop_left, Option.some.injEq, Prod.mk.injEq] at h
  exact ⟨h.1.symm, by rw [h.2]⟩

theorem readNumber_sound {value : Json}
    (h : readNumber bytes = some (value, rest)) : ∃ text, bytes = text ++ rest ∧ Text value text := by
  rw [readNumber] at h
  split_ifs at h with hnumber
  cases h
  refine ⟨bytes.takeWhile isNumberByte, takeWhile_append_dropWhile.symm, ?_⟩
  simp only [Text]
  exact ⟨trivial, hnumber⟩

/-- The front of a text up to a byte behind whitespace. -/
theorem exists_of_skip {byte : UInt8} (h : skip bytes = byte :: rest) :
    ∃ w, Blank w ∧ bytes = w ++ byte :: rest := by
  obtain ⟨w, hw, hbs⟩ := exists_skip bytes
  rw [h] at hbs
  exact ⟨w, hw, hbs⟩

mutual

theorem readValue_sound : ∀ {fuel : Nat} {bytes rest : Bytes} {value : Json},
    readValue fuel bytes = some (value, rest) → ∃ text, bytes = text ++ rest ∧ Text value text
  | 0, _, _, _, h => by
    rw [readValue] at h
    cases h
  | _ + 1, [], _, _, h => by
    rw [readValue] at h
    cases h
  | fuel + 1, byte :: tail, rest, value, h => by
    rw [readValue] at h
    split_ifs at h with hquote hbrac hemp hbr hemp hnull htrue hfalse
    · obtain ⟨⟨s, rest'⟩, hread, ⟨⟩⟩ := Option.map_eq_some_iff.mp h
      obtain ⟨inner, rfl, htext⟩ := readString_sound hread
      exact ⟨34 :: inner, by rw [hquote]; rfl, by simpa only [Text] using htext⟩
    · cases h
      obtain ⟨rest', hrest⟩ := head?_eq_some_iff.mp hemp
      obtain ⟨w, hw, rfl⟩ := exists_of_skip hrest
      refine ⟨91 :: (w ++ [93]), by rw [hbrac, hrest]; simp, ?_⟩
      simp only [Text, ItemsText]
      exact ⟨w, rfl, hw⟩
    · obtain ⟨⟨items, rest'⟩, hread, ⟨⟩⟩ := Option.map_eq_some_iff.mp h
      obtain ⟨inner, rfl, -, htext⟩ := readItems_sound hread
      refine ⟨91 :: (inner ++ [93]), by rw [hbrac]; simp, ?_⟩
      simp only [Text]
      exact ⟨inner, rfl, htext⟩
    · cases h
      obtain ⟨rest', hrest⟩ := head?_eq_some_iff.mp hemp
      obtain ⟨w, hw, rfl⟩ := exists_of_skip hrest
      refine ⟨123 :: (w ++ [125]), by rw [hbr, hrest]; simp, ?_⟩
      simp only [Text, MembersText]
      exact ⟨w, rfl, hw⟩
    · obtain ⟨⟨members, rest'⟩, hread, ⟨⟩⟩ := Option.map_eq_some_iff.mp h
      obtain ⟨inner, rfl, -, htext⟩ := readMembers_sound hread
      refine ⟨123 :: (inner ++ [125]), by rw [hbr]; simp, ?_⟩
      simp only [Text]
      exact ⟨inner, rfl, htext⟩
    · obtain ⟨rfl, hbs⟩ := readWord_sound h
      exact ⟨nullText, hbs, by simp only [Text]⟩
    · obtain ⟨rfl, hbs⟩ := readWord_sound h
      exact ⟨boolText true, hbs, by simp only [Text]⟩
    · obtain ⟨rfl, hbs⟩ := readWord_sound h
      exact ⟨boolText false, hbs, by simp only [Text]⟩
    · exact readNumber_sound h

theorem readItems_sound : ∀ {fuel : Nat} {bytes rest : Bytes} {items : List Json},
    readItems fuel bytes = some (items, rest) →
    ∃ inner, bytes = inner ++ 93 :: rest ∧ items ≠ [] ∧ ItemsText items inner
  | 0, _, _, _, h => by
    rw [readItems] at h
    cases h
  | fuel + 1, bytes, rest, items, h => by
    rw [readItems] at h
    split at h
    · cases h
    rename_i x rest₁ hvalue
    obtain ⟨text, htext, hx⟩ := readValue_sound hvalue
    obtain ⟨before, hbef, hbs⟩ := exists_skip bytes
    rw [htext] at hbs
    split at h
    · cases h
    rename_i byte rest₂ hskip
    obtain ⟨after, haft, rfl⟩ := exists_of_skip hskip
    split_ifs at h with hbrac hcom
    · cases h
      refine ⟨before ++ (text ++ after), by rw [hbs, hbrac]; simp, by simp, ?_⟩
      simp only [ItemsText]
      exact ⟨before, text, after, hbef, haft, hx, Or.inl ⟨trivial, rfl⟩⟩
    · obtain ⟨⟨xs, rest₃⟩, hread, ⟨⟩⟩ := Option.map_eq_some_iff.mp h
      obtain ⟨more, rfl, hne, hmore⟩ := readItems_sound hread
      refine ⟨before ++ (text ++ (after ++ 44 :: more)), by rw [hbs, hcom]; simp, by simp, ?_⟩
      simp only [ItemsText]
      exact ⟨before, text, after, hbef, haft, hx, Or.inr ⟨more, hne, rfl, hmore⟩⟩

theorem readMembers_sound : ∀ {fuel : Nat} {bytes rest : Bytes}
    {members : List (String × Json)}, readMembers fuel bytes = some (members, rest) →
    ∃ inner, bytes = inner ++ 125 :: rest ∧ members ≠ [] ∧ MembersText members inner
  | 0, _, _, _, h => by
    rw [readMembers] at h
    cases h
  | fuel + 1, bytes, rest, members, h => by
    rw [readMembers] at h
    split at h
    · cases h
    rename_i quote rest₀ hsta
    obtain ⟨before, hbef, rfl⟩ := exists_of_skip hsta
    split_ifs at h with hquote
    split at h
    · cases h
    rename_i name rest₁ hname
    obtain ⟨tail, rfl, hkey⟩ := readString_sound hname
    split at h
    · cases h
    rename_i colonByte rest₂ hcolonAt
    obtain ⟨middle, hmid, rfl⟩ := exists_of_skip hcolonAt
    split_ifs at h with hcol
    split at h
    · cases h
    rename_i x rest₃ hvalue
    obtain ⟨text, htext, hx⟩ := readValue_sound hvalue
    obtain ⟨colon, hcolon, hrest₂⟩ := exists_skip rest₂
    rw [htext] at hrest₂
    split at h
    · cases h
    rename_i byte rest₄ hend
    obtain ⟨after, haft, rfl⟩ := exists_of_skip hend
    split_ifs at h with hbr hcom
    · cases h
      refine ⟨before ++ (34 :: tail ++ (middle ++ 58 :: (colon ++ (text ++ after)))),
        by rw [hquote, hcol, hrest₂, hbr]; simp, by simp, ?_⟩
      simp only [MembersText]
      exact ⟨before, _, middle, colon, text, after, hbef, hmid, hcolon, haft, hkey, hx,
        Or.inl ⟨trivial, rfl⟩⟩
    · obtain ⟨⟨xs, rest₅⟩, hread, ⟨⟩⟩ := Option.map_eq_some_iff.mp h
      obtain ⟨more, rfl, hne, hmore⟩ := readMembers_sound hread
      refine ⟨before ++ (34 :: tail ++ (middle ++ 58 :: (colon ++ (text ++ (after ++ 44 :: more))))),
        by rw [hquote, hcol, hrest₂, hcom]; simp, by simp, ?_⟩
      simp only [MembersText]
      exact ⟨before, _, middle, colon, text, after, hbef, hmid, hcolon, haft, hkey, hx,
        Or.inr ⟨more, hne, rfl, hmore⟩⟩

end

/-- **The reader reads the grammar.** -/
theorem read_eq_some {value : Json} :
    read bytes = some value ↔ Document value bytes := by
  constructor
  · intro h
    rw [read] at h
    split at h
    · rename_i x rest hvalue
      split_ifs at h with hemp
      cases h
      obtain ⟨text, htext, hx⟩ := readValue_sound hvalue
      obtain ⟨before, hbef, hbs⟩ := exists_skip bytes
      rw [htext] at hbs
      exact ⟨before, text, rest, hbef, skip_eq_nil.mp (isEmpty_iff.mp hemp), hx, hbs⟩
    · cases h
  · rintro ⟨before, text, after, hbef, haft, htext, rfl⟩
    have hstop : Stop after := by
      simpa using stop_of_ws haft (show Stop [] by simp [Stop])
    have hread := @readValue_complete value text after ((before ++ (text ++ after)).length + 1) htext
      (by simp only [length_append]; omega) hstop
    rw [read, skip_text hbef htext, hread]
    simp [skip_eq_nil.mpr haft]

end Termivar.Json
