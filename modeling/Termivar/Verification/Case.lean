/-
# Verification cases

The identity that links a planned action to the hypothesis it verifies
(`VerificationCase` of `termivar-scanner/src/verification.rs`), with the payload
strategy a planner selected for it (`payload_strategy.rs`).
-/
import Termivar.Framing
import Termivar.Knowledge.Records

namespace Termivar

def hardMaxPayloadStrategyIdBytes : Nat := 128

/-- Whether every byte may stand in a strategy or assessment identity. -/
def identityBytes (value : String) : Bool :=
  (utf8Bytes value).all fun byte =>
    (48 ≤ byte && byte ≤ 57) || (65 ≤ byte && byte ≤ 90) || (97 ≤ byte && byte ≤ 122) ||
      byte = 46 || byte = 45 || byte = 95 || byte = 58

/-- Stable, versioned identity selected by a planner action. -/
structure PayloadStrategyRef where
  id : String
  revision : Nat
  notBlank : isBlank id = false
  short : id.utf8ByteSize ≤ hardMaxPayloadStrategyIdBytes
  valid : identityBytes id = true
  positive : revision ≠ 0
  bounded : revision ≤ u32Max

instance : DecidableEq PayloadStrategyRef := fun a b =>
  decidable_of_iff (a.id = b.id ∧ a.revision = b.revision) (by cases a; cases b; simp)

/-- Stable identity linking a planned action to its hypothesis provenance. A
knowledge-only case does not apply its hypothesis transition. -/
structure VerificationCase where
  id : String
  subject : EntityId
  (actionId hypothesisId : String)
  payloadStrategy : Option PayloadStrategyRef := none
  appliesHypothesisTransition : Bool := true
  id_notBlank : isBlank id = false
  actionId_notBlank : isBlank actionId = false
  hypothesisId_notBlank : isBlank hypothesisId = false

instance : DecidableEq VerificationCase := fun a b =>
  decidable_of_iff (a.id = b.id ∧ a.subject = b.subject ∧ a.actionId = b.actionId ∧
    a.hypothesisId = b.hypothesisId ∧ a.payloadStrategy = b.payloadStrategy ∧
    a.appliesHypothesisTransition = b.appliesHypothesisTransition) (by cases a; cases b; simp)

end Termivar
