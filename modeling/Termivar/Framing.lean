/-
# Framed bytes

How the sources put values under a hash: numbers as big-endian bytes of a
fixed width, texts and byte strings behind their length. A framed value can
be read back from the front of what follows it (`ReadsBack`), and so can a list
of such values behind its length.
-/
import Termivar.Machine

namespace Termivar

open List

/-- `to_be_bytes` of an unsigned type of `width` bytes. -/
def beBytes : Nat → Nat → Bytes
  | 0, _ => []
  | width + 1, value => beBytes width (value / 256) ++ [UInt8.ofNat (value % 256)]

@[simp] theorem length_beBytes : ∀ width value : Nat, (beBytes width value).length = width
  | 0, _ => rfl
  | width + 1, value => by simp [beBytes, length_beBytes width]

theorem beBytes_inj : ∀ {width a b : Nat}, a < 256 ^ width → b < 256 ^ width →
    beBytes width a = beBytes width b → a = b
  | 0, a, b, ha, hb, _ => by
    rw [pow_zero] at ha hb
    omega
  | width + 1, a, b, ha, hb, h => by
    have hlength : (beBytes width (a / 256)).length = (beBytes width (b / 256)).length := by
      rw [length_beBytes, length_beBytes]
    obtain ⟨hhigh, hlow⟩ := append_inj h hlength
    have hquot : a / 256 = b / 256 := by
      rw [pow_succ] at ha hb
      exact beBytes_inj (Nat.div_lt_of_lt_mul (by omega)) (Nat.div_lt_of_lt_mul (by omega)) hhigh
    have hrem : a % 256 = b % 256 := by
      have hbyte := congrArg UInt8.toNat (singleton_inj.mp hlow)
      simpa using hbyte
    omega

theorem beBytes_append_inj {width a b : Nat} {r r' : Bytes} (ha : a < 256 ^ width)
    (hb : b < 256 ^ width) (h : beBytes width a ++ r = beBytes width b ++ r') : a = b ∧ r = r' := by
  have hlength : (beBytes width a).length = (beBytes width b).length := by
    rw [length_beBytes, length_beBytes]
  obtain ⟨hvalue, hrest⟩ := append_inj h hlength
  exact ⟨beBytes_inj ha hb hvalue, hrest⟩

/-- `as_bytes` of a string. -/
def utf8Bytes (s : String) : Bytes := s.toByteArray.data.toList

theorem utf8Bytes_injective : Function.Injective utf8Bytes := by
  intro a b h
  have hdata : a.toByteArray.data = b.toByteArray.data := Array.toList_inj.mp h
  exact String.toByteArray_inj.mp (ByteArray.ext hdata)

/-- A byte string behind its length. -/
def frame (width : Nat) (bytes : Bytes) : Bytes := beBytes width bytes.length ++ bytes

theorem frame_append_inj {width : Nat} {a b r r' : Bytes} (ha : a.length < 256 ^ width)
    (hb : b.length < 256 ^ width) (h : frame width a ++ r = frame width b ++ r') :
    a = b ∧ r = r' := by
  unfold frame at h
  rw [append_assoc, append_assoc] at h
  obtain ⟨hlength, hrest⟩ := beBytes_append_inj ha hb h
  exact append_inj hrest hlength

/-! ### Reading back -/

/-- What is written of the values with `S` can be read back from the front of
what follows it. -/
def ReadsBack {α : Type} (S : α → Prop) (write : α → Bytes) : Prop :=
  ∀ ⦃a b : α⦄ ⦃r r' : Bytes⦄, S a → S b → write a ++ r = write b ++ r' → a = b ∧ r = r'

section ReadsBack

variable {α : Type} {S : α → Prop} {write : α → Bytes}

theorem readsBack_beBytes (width : Nat) : ReadsBack (· < 256 ^ width) (beBytes width) :=
  fun _ _ _ _ ha hb h => beBytes_append_inj ha hb h

/-- A text behind its length. -/
theorem readsBack_frame (width : Nat) :
    ReadsBack (fun text : String => text.utf8ByteSize < 256 ^ width)
      (fun text => frame width (utf8Bytes text)) := by
  intro a b r r' ha hb h
  obtain ⟨hbytes, hrest⟩ := frame_append_inj (a := utf8Bytes a) (b := utf8Bytes b) ha hb h
  exact ⟨utf8Bytes_injective hbytes, hrest⟩

theorem ReadsBack.flatMap (h : ReadsBack S write) : ∀ {as bs : List α} {r r' : Bytes},
    (∀ a ∈ as, S a) → (∀ b ∈ bs, S b) → as.length = bs.length →
    as.flatMap write ++ r = bs.flatMap write ++ r' → as = bs ∧ r = r'
  | [], [], _, _, _, _, _, heq => ⟨rfl, heq⟩
  | a :: as, b :: bs, _, _, ha, hb, hlength, heq => by
    rw [flatMap_cons, flatMap_cons, append_assoc, append_assoc] at heq
    obtain ⟨rfl, htail⟩ := h (ha a mem_cons_self) (hb b mem_cons_self) heq
    obtain ⟨rfl, hrest⟩ := h.flatMap (fun x hx => ha x (mem_cons_of_mem _ hx))
      (fun x hx => hb x (mem_cons_of_mem _ hx)) (Nat.succ.inj hlength) htail
    exact ⟨rfl, hrest⟩

/-- The same without a length, when nothing follows. -/
theorem ReadsBack.flatMap_injective (h : ReadsBack S write) (hne : ∀ a, write a ≠ []) :
    ∀ {as bs : List α}, (∀ a ∈ as, S a) → (∀ b ∈ bs, S b) → as.flatMap write = bs.flatMap write → as = bs
  | [], [], _, _, _ => rfl
  | [], b :: bs, _, _, heq => absurd (append_eq_nil_iff.mp heq.symm).1 (hne b)
  | a :: as, [], _, _, heq => absurd (append_eq_nil_iff.mp heq).1 (hne a)
  | a :: as, b :: bs, ha, hb, heq => by
    obtain ⟨rfl, hrest⟩ := h (ha a mem_cons_self) (hb b mem_cons_self) heq
    rw [h.flatMap_injective hne (fun x hx => ha x (mem_cons_of_mem _ hx))
      (fun x hx => hb x (mem_cons_of_mem _ hx)) hrest]

theorem readsBack_byte {f : α → UInt8} (hf : Function.Injective f) :
    ReadsBack (fun _ => True) fun a => [f a] := by
  intro a b r r' _ _ h
  obtain ⟨hbyte, hrest⟩ := cons.inj h
  exact ⟨hf hbyte, hrest⟩

/-- An option behind a mark. -/
theorem ReadsBack.optional {mark : Bool → Bytes} (hmark : ReadsBack (fun _ => True) mark)
    (h : ReadsBack S write) {writes : Option α → Bytes} (hnone : writes none = mark false)
    (hsome : ∀ a, writes (some a) = mark true ++ write a) :
    ReadsBack (fun o => ∀ a ∈ o, S a) writes := by
  rintro (_ | a) (_ | b) r r' ha hb heq <;> simp only [hnone, hsome, append_assoc] at heq
  · exact ⟨rfl, (hmark trivial trivial heq).2⟩
  · exact absurd (hmark trivial trivial heq).1 (by decide)
  · exact absurd (hmark trivial trivial heq).1 (by decide)
  · obtain ⟨rfl, hrest⟩ := h (ha a rfl) (hb b rfl) (hmark trivial trivial heq).2
    exact ⟨rfl, hrest⟩

/-- A list behind its length. -/
theorem ReadsBack.counted (h : ReadsBack S write) (width : Nat) :
    ReadsBack (fun as : List α => as.length < 256 ^ width ∧ ∀ a ∈ as, S a)
      (fun as => beBytes width as.length ++ as.flatMap write) := by
  intro as bs r r' has hbs heq
  simp only [append_assoc] at heq
  obtain ⟨hlength, heq⟩ := beBytes_append_inj has.1 hbs.1 heq
  exact h.flatMap has.2 hbs.2 hlength heq

variable {β : Type} {T : β → Prop} {write' : β → Bytes}

/-- One value after the other. -/
theorem ReadsBack.prod (h : ReadsBack S write) (h' : ReadsBack T write') :
    ReadsBack (fun p : α × β => S p.1 ∧ T p.2) fun p => write p.1 ++ write' p.2 := by
  rintro ⟨a, b⟩ ⟨c, d⟩ r r' hab hcd heq
  rw [append_assoc, append_assoc] at heq
  obtain ⟨rfl, htail⟩ := h hab.1 hcd.1 heq
  obtain ⟨rfl, hrest⟩ := h' hab.2 hcd.2 htail
  exact ⟨rfl, hrest⟩

/-- A value of which parts are written that determine it. -/
theorem ReadsBack.parts (h : ReadsBack S write) (part : β → α)
    (hwrite : ∀ b, write' b = write (part b)) (hS : ∀ b, T b → S (part b))
    (hinj : ∀ a b, T a → T b → part a = part b → a = b) : ReadsBack T write' := by
  intro a b r r' ha hb heq
  rw [hwrite, hwrite] at heq
  obtain ⟨hpart, hrest⟩ := h (hS a ha) (hS b hb) heq
  exact ⟨hinj a b ha hb hpart, hrest⟩

end ReadsBack

/-! ### Hexadecimal digits -/

/-- The two lower-case digits of a byte. -/
def hexByte (byte : UInt8) : List Char :=
  let digit (n : Nat) : Char := Char.ofNat (if n < 10 then 48 + n else 87 + n)
  [digit (byte.toNat / 16), digit (byte.toNat % 16)]

/-- `hex::encode`. -/
def hex (bytes : Bytes) : String := String.ofList (bytes.flatMap hexByte)

end Termivar
