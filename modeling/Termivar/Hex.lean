/-
# Lower-case hexadecimal text

Bytes as texts of two lower-case digits each, and back: decoding accepts
exactly the texts of some bytes (`Hex.decode_eq_some_iff`).
-/
import Termivar.Framing

namespace Termivar.Hex

open List Option

/-- The digit of a number below sixteen. -/
def digit (n : Nat) : UInt8 := UInt8.ofNat (if n < 10 then 48 + n else 87 + n)

def encode (bytes : Bytes) : Bytes :=
  bytes.flatMap fun byte => [digit (byte.toNat / 16), digit (byte.toNat % 16)]

/-- The number of a digit. -/
def nibble (byte : UInt8) : Option UInt8 :=
  if 48 ≤ byte ∧ byte ≤ 57 then some (byte - 48)
  else if 97 ≤ byte ∧ byte ≤ 102 then some (byte - 97 + 10)
  else none

def decode : Bytes → Option Bytes
  | high :: low :: rest => do
    let high ← nibble high
    let low ← nibble low
    return (high <<< 4 ||| low) :: (← decode rest)
  | [] => some []
  | [_] => none

/-! ### Single bytes -/

/-- A property of the first 256 numbers is one of all bytes. -/
theorem forall_byte {P : UInt8 → Prop} (h : ∀ n < 256, P (UInt8.ofNat n)) (byte : UInt8) : P byte := by
  have hbyte := h byte.toNat byte.toNat_lt
  rwa [UInt8.ofNat_toNat] at hbyte

theorem nibble_digit : ∀ n < 16, nibble (digit n) = some (UInt8.ofNat n) := by decide

theorem digit_nibble {byte value : UInt8} (h : nibble byte = some value) :
    value.toNat < 16 ∧ digit value.toNat = byte := by
  unfold nibble at h
  split_ifs at h with hdec hletter
  · obtain rfl : byte - 48 = value := some.inj h
    obtain ⟨hlow, hhigh⟩ := hdec
    rw [UInt8.le_iff_toNat_le] at hlow hhigh
    have hvalue : (byte - 48).toNat = byte.toNat - 48 := UInt8.toNat_sub_of_le _ _ hlow
    have hlow' : 48 ≤ byte.toNat := hlow
    have hhigh' : byte.toNat ≤ 57 := hhigh
    rw [hvalue, digit, if_pos (by omega), show 48 + (byte.toNat - 48) = byte.toNat by omega]
    exact ⟨by omega, UInt8.ofNat_toNat⟩
  · obtain rfl : byte - 97 + 10 = value := some.inj h
    obtain ⟨hlow, hhigh⟩ := hletter
    rw [UInt8.le_iff_toNat_le] at hlow hhigh
    have hlow' : 97 ≤ byte.toNat := hlow
    have hhigh' : byte.toNat ≤ 102 := hhigh
    have hsub : (byte - 97).toNat = byte.toNat - 97 := UInt8.toNat_sub_of_le _ _ hlow
    have hvalue : (byte - 97 + 10).toNat = byte.toNat - 97 + 10 := by
      rw [UInt8.toNat_add, hsub]
      exact Nat.mod_eq_of_lt (show byte.toNat - 97 + 10 < 256 by omega)
    rw [hvalue, digit, if_neg (by omega),
      show 87 + (byte.toNat - 97 + 10) = byte.toNat by omega]
    exact ⟨by omega, UInt8.ofNat_toNat⟩

set_option maxRecDepth 4000 in
theorem join_halves : ∀ byte : UInt8,
    UInt8.ofNat (byte.toNat / 16) <<< 4 ||| UInt8.ofNat (byte.toNat % 16) = byte :=
  forall_byte (by decide)

theorem halves_join : ∀ high < 16, ∀ low < 16,
    (UInt8.ofNat high <<< 4 ||| UInt8.ofNat low).toNat / 16 = high ∧
      (UInt8.ofNat high <<< 4 ||| UInt8.ofNat low).toNat % 16 = low := by
  decide

theorem utf8EncodeChar_digit : ∀ n < 16,
    String.utf8EncodeChar (Char.ofNat (if n < 10 then 48 + n else 87 + n)) = [digit n] := by
  decide

theorem utf8EncodeChar_digits (byte : UInt8) :
    (hexByte byte).flatMap String.utf8EncodeChar = encode [byte] := by
  have hhigh := utf8EncodeChar_digit (byte.toNat / 16) (by have := byte.toNat_lt; omega)
  have hlow := utf8EncodeChar_digit (byte.toNat % 16) (Nat.mod_lt _ (by decide))
  simp only [hexByte, flatMap_cons, flatMap_nil, hhigh, hlow]
  rfl

/-! ### Texts -/

theorem encode_cons (byte : UInt8) (bytes : Bytes) :
    encode (byte :: bytes) =
      digit (byte.toNat / 16) :: digit (byte.toNat % 16) :: encode bytes := rfl

theorem length_encode : ∀ bytes : Bytes, (encode bytes).length = 2 * bytes.length
  | [] => rfl
  | byte :: bytes => by
    rw [encode_cons, length_cons, length_cons, length_encode bytes, length_cons]
    omega

theorem decode_encode : ∀ bytes : Bytes, decode (encode bytes) = some bytes
  | [] => rfl
  | byte :: bytes => by
    have hhigh := nibble_digit (byte.toNat / 16) (by have := byte.toNat_lt; omega)
    have hlow := nibble_digit (byte.toNat % 16) (Nat.mod_lt _ (by decide))
    rw [encode_cons, decode, hhigh, hlow, decode_encode bytes]
    simp only [Option.bind_eq_bind, Option.bind_some, Option.pure_def, join_halves]

theorem encode_of_decode : ∀ {text bytes : Bytes}, decode text = some bytes → encode bytes = text
  | [], bytes, h => by
    cases h
    rfl
  | [_], bytes, h => by cases h
  | high :: low :: rest, bytes, h => by
    rw [decode] at h
    obtain ⟨upper, hupper, h⟩ := bind_eq_some_iff.mp h
    obtain ⟨lower, hlower, h⟩ := bind_eq_some_iff.mp h
    obtain ⟨more, hmore, h⟩ := bind_eq_some_iff.mp h
    cases h
    obtain ⟨hupp, rfl⟩ := digit_nibble hupper
    obtain ⟨hlowerLt, rfl⟩ := digit_nibble hlower
    obtain ⟨hhigh, hlow⟩ := halves_join upper.toNat hupp lower.toNat hlowerLt
    rw [UInt8.ofNat_toNat, UInt8.ofNat_toNat] at hhigh hlow
    rw [encode_cons, hhigh, hlow, encode_of_decode hmore]

/-- **A text is decoded exactly if it is the text of the bytes.** -/
theorem decode_eq_some_iff {text bytes : Bytes} :
    decode text = some bytes ↔ text = encode bytes :=
  ⟨fun h => (encode_of_decode h).symm, fun h => h ▸ decode_encode bytes⟩

theorem utf8Bytes_ofList (chars : List Char) :
    utf8Bytes (String.ofList chars) = chars.flatMap String.utf8EncodeChar := by
  rw [utf8Bytes, String.toByteArray_ofList, utf8Encode]
  simp

theorem utf8Bytes_hex (bytes : Bytes) : utf8Bytes (hex bytes) = encode bytes := by
  rw [hex, utf8Bytes_ofList, flatMap_assoc]
  induction bytes with
  | nil => rfl
  | cons byte bytes ih =>
    rw [flatMap_cons, utf8EncodeChar_digits, ih]
    rfl

theorem length_utf8Bytes (text : String) : (utf8Bytes text).length = text.utf8ByteSize := rfl

theorem utf8ByteSize_hex (bytes : Bytes) : (hex bytes).utf8ByteSize = 2 * bytes.length := by
  rw [← length_utf8Bytes, utf8Bytes_hex, length_encode]

end Termivar.Hex
