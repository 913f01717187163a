/-
# Base64 with the URL-safe alphabet and no padding

Three bytes are four symbols of six bits; one or two bytes at the end are two
or three symbols whose spare bits are zero. Decoding is strict: it refuses a
symbol outside the alphabet, a lone last symbol and spare bits that are set.
-/
import Termivar.Machine

namespace Termivar.Base64

open Option

/-- The symbol of six bits. -/
def symbol (n : Nat) : Char :=
  if n < 26 then Char.ofNat (65 + n)
  else if n < 52 then Char.ofNat (71 + n)
  else if n < 62 then Char.ofNat (n - 4)
  else if n = 62 then '-'
  else '_'

/-- The six bits of a symbol. -/
def value (c : Char) : Option Nat :=
  let n := c.toNat
  if 65 ≤ n ∧ n ≤ 90 then some (n - 65)
  else if 97 ≤ n ∧ n ≤ 122 then some (n - 71)
  else if 48 ≤ n ∧ n ≤ 57 then some (n + 4)
  else if n = 45 then some 62
  else if n = 95 then some 63
  else none

/-- A symbol of the alphabet. -/
def isUrlSafe (c : Char) : Bool := c.isAlphanum || c = '-' || c = '_'

def encode : Bytes → List Char
  | [] => []
  | [a] => [symbol (a.toNat / 4), symbol (a.toNat % 4 * 16)]
  | [a, b] =>
    [symbol (a.toNat / 4), symbol (a.toNat % 4 * 16 + b.toNat / 16), symbol (b.toNat % 16 * 4)]
  | a :: b :: c :: rest =>
    symbol (a.toNat / 4) :: symbol (a.toNat % 4 * 16 + b.toNat / 16) ::
      symbol (b.toNat % 16 * 4 + c.toNat / 64) :: symbol (c.toNat % 64) :: encode rest

def decode : List Char → Option Bytes
  | [] => some []
  | [_] => none
  | [x, y] => do
    let x ← value x
    let y ← value y
    if y % 16 = 0 then return [UInt8.ofNat (x * 4 + y / 16)] else none
  | [x, y, z] => do
    let x ← value x
    let y ← value y
    let z ← value z
    if z % 4 = 0 then
      return [UInt8.ofNat (x * 4 + y / 16), UInt8.ofNat (y % 16 * 16 + z / 4)]
    else none
  | x :: y :: z :: w :: rest => do
    let x ← value x
    let y ← value y
    let z ← value z
    let w ← value w
    let rest ← decode rest
    return UInt8.ofNat (x * 4 + y / 16) :: UInt8.ofNat (y % 16 * 16 + z / 4) ::
      UInt8.ofNat (z % 4 * 64 + w) :: rest

/-! ### Symbols -/

theorem value_symbol {n : Nat} (h : n < 64) : value (symbol n) = some n := by
  revert n
  decide

theorem symbol_urlSafe {n : Nat} (h : n < 64) : isUrlSafe (symbol n) = true := by
  revert n
  decide

theorem utf8Size_symbol {n : Nat} (h : n < 64) : (symbol n).utf8Size = 1 := by
  revert n
  decide

theorem ofNat_toNat (a : UInt8) {n : Nat} (h : n = a.toNat) : UInt8.ofNat n = a := by
  rw [h, UInt8.ofNat_toNat]

/-! ### The code -/

/-- Decoding undoes encoding. -/
theorem decode_encode : ∀ bytes : Bytes, decode (encode bytes) = some bytes
  | [] => rfl
  | [a] => by
    have ha := a.toNat_lt
    have h1 : value (symbol (a.toNat / 4)) = some (a.toNat / 4) := value_symbol (by omega)
    have h2 : value (symbol (a.toNat % 4 * 16)) = some (a.toNat % 4 * 16) := value_symbol (by omega)
    have hspare : a.toNat % 4 * 16 % 16 = 0 := by omega
    have hbyte : UInt8.ofNat (a.toNat / 4 * 4 + a.toNat % 4 * 16 / 16) = a :=
      ofNat_toNat a (by omega)
    simp only [encode, decode, h1, h2, hspare, hbyte, bind_eq_bind, bind_some, if_true, pure_def]
  | [a, b] => by
    have ha := a.toNat_lt
    have hb := b.toNat_lt
    have h1 : value (symbol (a.toNat / 4)) = some (a.toNat / 4) := value_symbol (by omega)
    have h2 := value_symbol (n := a.toNat % 4 * 16 + b.toNat / 16) (by omega)
    have h3 := value_symbol (n := b.toNat % 16 * 4) (by omega)
    have hspare : b.toNat % 16 * 4 % 4 = 0 := by omega
    have hfirst : UInt8.ofNat (a.toNat / 4 * 4 + (a.toNat % 4 * 16 + b.toNat / 16) / 16) = a :=
      ofNat_toNat a (by omega)
    have hsnd : UInt8.ofNat ((a.toNat % 4 * 16 + b.toNat / 16) % 16 * 16 +
        b.toNat % 16 * 4 / 4) = b := ofNat_toNat b (by omega)
    simp only [encode, decode, h1, h2, h3, hspare, hfirst, hsnd, bind_eq_bind,
      bind_some, if_true, pure_def]
  | a :: b :: c :: rest => by
    have ha := a.toNat_lt
    have hb := b.toNat_lt
    have hc := c.toNat_lt
    have h1 : value (symbol (a.toNat / 4)) = some (a.toNat / 4) := value_symbol (by omega)
    have h2 := value_symbol (n := a.toNat % 4 * 16 + b.toNat / 16) (by omega)
    have h3 := value_symbol (n := b.toNat % 16 * 4 + c.toNat / 64) (by omega)
    have h4 := value_symbol (n := c.toNat % 64) (by omega)
    have hfirst : UInt8.ofNat (a.toNat / 4 * 4 + (a.toNat % 4 * 16 + b.toNat / 16) / 16) = a :=
      ofNat_toNat a (by omega)
    have hsnd : UInt8.ofNat ((a.toNat % 4 * 16 + b.toNat / 16) % 16 * 16 +
        (b.toNat % 16 * 4 + c.toNat / 64) / 4) = b := ofNat_toNat b (by omega)
    have hthd : UInt8.ofNat ((b.toNat % 16 * 4 + c.toNat / 64) % 4 * 64 + c.toNat % 64) = c :=
      ofNat_toNat c (by omega)
    simp only [encode, decode, h1, h2, h3, h4, decode_encode rest, hfirst, hsnd, hthd,
      bind_eq_bind, bind_some, pure_def]

theorem length_encode : ∀ bytes : Bytes, (encode bytes).length = (4 * bytes.length + 2) / 3
  | [] => rfl
  | [a] => by simp [encode]
  | [a, b] => by simp [encode]
  | a :: b :: c :: rest => by
    simp only [encode, List.length_cons, length_encode rest]
    omega

/-- Every character of an encoding is a symbol of six bits. -/
theorem exists_symbol : ∀ {bytes : Bytes} {c : Char}, c ∈ encode bytes →
    ∃ n < 64, c = symbol n
  | [a], c, h => by
    have ha := a.toNat_lt
    simp only [encode, List.mem_cons, List.not_mem_nil, or_false] at h
    rcases h with rfl | rfl
    · exact ⟨_, by omega, rfl⟩
    · exact ⟨_, by omega, rfl⟩
  | [a, b], c, h => by
    have ha := a.toNat_lt
    have hb := b.toNat_lt
    simp only [encode, List.mem_cons, List.not_mem_nil, or_false] at h
    rcases h with rfl | rfl | rfl
    · exact ⟨_, by omega, rfl⟩
    · exact ⟨_, by omega, rfl⟩
    · exact ⟨_, by omega, rfl⟩
  | a :: b :: d :: rest, c, h => by
    have ha := a.toNat_lt
    have hb := b.toNat_lt
    have hd := d.toNat_lt
    simp only [encode, List.mem_cons] at h
    rcases h with rfl | rfl | rfl | rfl | h
    · exact ⟨_, by omega, rfl⟩
    · exact ⟨_, by omega, rfl⟩
    · exact ⟨_, by omega, rfl⟩
    · exact ⟨_, by omega, rfl⟩
    · exact exists_symbol h

theorem encode_urlSafe (bytes : Bytes) : (encode bytes).all isUrlSafe = true := by
  rw [List.all_eq_true]
  intro c hc
  obtain ⟨n, hn, rfl⟩ := exists_symbol hc
  exact symbol_urlSafe hn

end Termivar.Base64
