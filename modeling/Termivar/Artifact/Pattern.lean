/-
# Artifact signature patterns

`termivar-artifact/src/pattern.rs`: a pattern is a short list of exact bytes
and wildcards with at least two exact ones; the first exact byte is its
anchor.
-/
import Termivar.Machine

namespace Termivar

/-- A fail-closed signature model, catalog or scan error. -/
inductive ArtifactError where
  | limitExceeded (field : String) (limit : Nat)
  | invalidIdentifier (field : String)
  | unsupportedSchema
  | invalidText (field : String)
  | invalidPattern
  | insufficientLiteralBytes
  | duplicatePack
  | conflictingPackRevision
  | duplicateSignature
  | conflictingSignatureRevision
  | duplicateSemanticPattern
  | catalogCapacityExceeded
  | invalidScanLimit (field : String)
  | offsetOverflow
  | reportSerializationFailed
  | invalidScanReport (field : String)

def maxPatternBytes : Nat := 256

def minLiteralBytes : Nat := 2

inductive PatternAtom where
  | exact (byte : UInt8)
  | wildcard

/-- The exact bytes with their offsets. -/
def literals (atoms : List PatternAtom) : List (Nat × UInt8) :=
  atoms.zipIdx.filterMap fun
    | (.exact byte, offset) => some (offset, byte)
    | (.wildcard, _) => none

theorem offset_lt_of_mem_literals {atoms : List PatternAtom} {offset : Nat} {byte : UInt8}
    (h : (offset, byte) ∈ literals atoms) : offset < atoms.length := by
  obtain ⟨⟨atom, index⟩, hmem, hatom⟩ := List.mem_filterMap.mp h
  have hidx : index < atoms.length := by
    have := List.mem_zipIdx hmem
    omega
  cases atom with
  | exact b =>
    simp only [Option.some.injEq, Prod.mk.injEq] at hatom
    omega
  | wildcard => simp at hatom

/-- A compiled exact/wildcard byte signature. -/
structure ArtifactPattern where
  atoms : List PatternAtom
  bounded : atoms.length ≤ maxPatternBytes
  literal : minLiteralBytes ≤ (literals atoms).length

namespace ArtifactPattern

/-! ### Compiling -/

/-! ### Matching -/

variable (pattern : ArtifactPattern)

def len : Nat := pattern.atoms.length

/-- The first exact byte and its offset. -/
def anchor : Nat × UInt8 :=
  (literals pattern.atoms).head (List.ne_nil_of_length_pos
    (Nat.lt_of_lt_of_le (by decide) pattern.literal))

theorem anchor_lt_len : pattern.anchor.1 < pattern.len :=
  offset_lt_of_mem_literals (List.head_mem _)

def atomMatches : PatternAtom → UInt8 → Bool
  | .exact expected, byte => expected = byte
  | .wildcard, _ => true

/-- `input.get(start..end)`. -/
def window (input : Bytes) (start stop : Nat) : Option Bytes :=
  if start ≤ stop ∧ stop ≤ input.length then some ((input.drop start).take (stop - start)) else none

def matchesAt (input : Bytes) (start : Nat) : Bool :=
  match checkedAdd u64Max start pattern.len with
  | none => false
  | some stop =>
    match window input start stop with
    | none => false
    | some candidate => (pattern.atoms.zip candidate).all fun (atom, byte) => atomMatches atom byte

end ArtifactPattern

end Termivar
