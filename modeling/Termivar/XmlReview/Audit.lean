/-
# The audit of an external-entity review

`termivar-scanner/src/xml_external_entity_review.rs`: the documents of the
three target requests, and the check that the counts, the callbacks and the
outcome a run reports form one consistent result.
-/
import Termivar.Command
import Termivar.Framing
import Termivar.Url

namespace Termivar.XmlReview

def maxDocumentBytes : Nat := 4 * 1024
def maxTargetResponseBytes : Nat := 16 * 1024
def targetRequests : Nat := 3
def activeVerifications : Nat := 1
def maxProviderRequests : Nat := 12
def minPollsPerLeg : Nat := 1
def maxPollsPerLeg : Nat := 2
def minLifetimeMs : Nat := 5000
def maxLifetimeMs : Nat := 30000

/-- What a run reads of an accepted policy. -/
structure XmlExternalEntityReviewPolicy where
  policyId : Bytes
  endpoint : Url
  (pollsPerLeg pollIntervalMs lifetimeMs : Nat)
  polls : minPollsPerLeg ≤ pollsPerLeg ∧ pollsPerLeg ≤ maxPollsPerLeg
  lifetime : minLifetimeMs ≤ lifetimeMs ∧ lifetimeMs ≤ maxLifetimeMs

/-! ### Documents -/

/-- Exact role of one generated document in the fixed three-request plan. -/
inductive XmlExternalEntityDocumentRole where
  | control
  | candidate
  | replay
  deriving DecidableEq

namespace XmlExternalEntityDocumentRole

def asStr : XmlExternalEntityDocumentRole → String
  | control => "control"
  | candidate => "candidate"
  | replay => "replay"

def referencesEntity (role : XmlExternalEntityDocumentRole) : Bool := role ≠ control

end XmlExternalEntityDocumentRole

inductive XmlExternalEntityDocumentError where
  | invalidCallbackTarget
  | callbackIdentityConflict
  | documentTooLarge

/-- One bounded generated XML body. It is never empty. -/
structure XmlExternalEntityDocument where
  policyId : Bytes
  role : XmlExternalEntityDocumentRole
  bytes : Bytes
  bounded : bytes.length ≤ maxDocumentBytes
  nonempty : 0 < bytes.length

structure XmlExternalEntityDocumentPlan where
  (control candidate replay : XmlExternalEntityDocument)

def XmlExternalEntityDocumentPlan.document (plan : XmlExternalEntityDocumentPlan) :
    XmlExternalEntityDocumentRole → XmlExternalEntityDocument
  | .control => plan.control
  | .candidate => plan.candidate
  | .replay => plan.replay

def escapeXmlCharacter (character : Char) : List Char :=
  if character = '&' then "&amp;".toList
  else if character = '<' then "&lt;".toList
  else if character = '>' then "&gt;".toList
  else if character.toNat = 34 then "&quot;".toList
  else if character.toNat = 39 then "&apos;".toList
  else [character]

def escapeXmlAttribute (source : String) : String :=
  String.ofList (source.toList.flatMap escapeXmlCharacter)

def xmlEntityName : String := "termivar_external"

/-- The text of a document up to its closing tag. -/
def documentText (role : XmlExternalEntityDocumentRole) (callbackTarget : String) : String :=
  let content := if role.referencesEntity then "&" ++ xmlEntityName ++ ";" else "control"
  "<?xml version=\"1.0\" encoding=\"UTF-8\"?>\n<!DOCTYPE termivar-review [<!ENTITY " ++
    xmlEntityName ++ " SYSTEM \"" ++ escapeXmlAttribute callbackTarget ++
    "\">]>\n<termivar-review role=\"" ++ role.asStr ++ "\">" ++ content

def documentEnd : String := "</termivar-review>\n"

@[irreducible] def buildDocument (policyId : Bytes) (role : XmlExternalEntityDocumentRole)
    (callbackTarget : String) : Except XmlExternalEntityDocumentError XmlExternalEntityDocument :=
  let bytes := utf8Bytes (documentText role callbackTarget) ++ utf8Bytes documentEnd
  if bounded : bytes.length ≤ maxDocumentBytes then
    .ok { policyId, role, bytes, bounded
          nonempty := by
            have : 0 < (utf8Bytes documentEnd).length := by decide +kernel
            simp only [bytes, List.length_append]
            omega }
  else .error .documentTooLarge

/-- `from_callback_strings`. Which targets are valid under the policy, and what
they parse to, is decided outside. -/
def planNew (policyId : Bytes) (validateCallbackTarget : String → Option Url)
    (controlTarget candidateTarget replayTarget : String) :
    Except XmlExternalEntityDocumentError XmlExternalEntityDocumentPlan := do
  let control ← okOr (validateCallbackTarget controlTarget) .invalidCallbackTarget
  let candidate ← okOr (validateCallbackTarget candidateTarget) .invalidCallbackTarget
  let replay ← okOr (validateCallbackTarget replayTarget) .invalidCallbackTarget
  if control = candidate ∨ control = replay ∨ candidate = replay then
    throw .callbackIdentityConflict
  return { control := ← buildDocument policyId .control control.text
           candidate := ← buildDocument policyId .candidate candidate.text
           replay := ← buildDocument policyId .replay replay.text }

/-! ### The audit -/

/-- Closed, raw-free conclusion retained by the typed audit. -/
inductive XmlExternalEntityReviewOutcome where
  | notEligible
  | controlIncomplete
  | preflightContaminated
  | controlCallbackObserved
  | noCallback
  | candidateOnly
  | replayOnly
  | repeatedExternalEntityResolutionObserved
  | correlationMismatch
  | cleanupIncomplete
  | cancelled
  | budgetExhausted
  | incomplete
  deriving DecidableEq

inductive XmlExternalEntityAuditError where
  | invalidCounts
  | invalidCorrelation
  | invalidOutcome
  | invalidProjection
  deriving DecidableEq

structure XmlExternalEntityAuditFacts where
  outcome : XmlExternalEntityReviewOutcome
  (targetRequestCount providerRequestCount activeVerificationCount targetRequestBodyBytes : Nat)
  targetResponseBytes : Nat
  (targetComplete preflightClean controlCallbackObserved candidateCallbackObserved : Bool)
  (replayCallbackObserved callbackTargetsDistinct eventIdentitiesDistinct cleanupVerified : Bool)
  (targetAccountingComplete providerAccountingComplete itemProjected : Bool)

namespace XmlExternalEntityAuditFacts

variable (facts : XmlExternalEntityAuditFacts)

def invalidCounts : Bool :=
  facts.targetRequestCount > targetRequests || facts.providerRequestCount > maxProviderRequests ||
    facts.activeVerificationCount > activeVerifications ||
    facts.targetRequestBodyBytes > targetRequests * maxDocumentBytes ||
    (facts.targetComplete && facts.targetResponseBytes > targetRequests * maxTargetResponseBytes)

def noCallbacks : Bool :=
  !facts.controlCallbackObserved && !facts.candidateCallbackObserved && !facts.replayCallbackObserved

def targetBytesConsistent : Bool :=
  (facts.targetRequestCount == 0) == (facts.targetRequestBodyBytes == 0)

def targetCompletionConsistent : Bool :=
  !facts.targetComplete || facts.targetRequestCount == targetRequests

def targetAccountingConsistent : Bool := !facts.targetAccountingComplete || facts.targetComplete

def callbackFactsConsistent : Bool := facts.noCallbacks || facts.callbackTargetsDistinct

def eventFactsConsistent : Bool :=
  !facts.eventIdentitiesDistinct || (facts.callbackTargetsDistinct &&
    facts.candidateCallbackObserved && facts.replayCallbackObserved)

def providerEmptyConsistent : Bool :=
  facts.providerRequestCount != 0 || (facts.activeVerificationCount == 0 && !facts.preflightClean &&
    facts.noCallbacks && !facts.callbackTargetsDistinct && !facts.eventIdentitiesDistinct &&
    !facts.cleanupVerified && !facts.providerAccountingComplete)

def providerCompletionConsistent : Bool :=
  !facts.providerAccountingComplete || (facts.providerRequestCount ≥ 9 && facts.preflightClean &&
    facts.callbackTargetsDistinct)

def targetStartedConsistent : Bool :=
  facts.targetRequestCount == 0 || (facts.providerRequestCount > 0 && facts.preflightClean &&
    facts.callbackTargetsDistinct)

def correlated : Bool :=
  facts.activeVerificationCount == (decide (facts.targetRequestCount ≥ 2)).toNat &&
    facts.targetBytesConsistent && facts.targetCompletionConsistent &&
    facts.targetAccountingConsistent && facts.callbackFactsConsistent &&
    facts.eventFactsConsistent && facts.providerEmptyConsistent &&
    facts.providerCompletionConsistent && facts.targetStartedConsistent

def completeLifecycle : Bool :=
  facts.targetRequestCount == targetRequests && facts.providerRequestCount > 0 &&
    facts.activeVerificationCount == activeVerifications && facts.targetRequestBodyBytes > 0 &&
    facts.targetComplete && facts.preflightClean && !facts.controlCallbackObserved &&
    facts.callbackTargetsDistinct && facts.cleanupVerified && facts.targetAccountingComplete &&
    facts.providerAccountingComplete

def completePositive : Bool :=
  facts.completeLifecycle && facts.candidateCallbackObserved && facts.replayCallbackObserved &&
    facts.eventIdentitiesDistinct

def positiveOutcome : Bool := facts.outcome = .repeatedExternalEntityResolutionObserved

def emptyLifecycle : Bool :=
  facts.targetRequestCount == 0 && facts.providerRequestCount == 0 && facts.noCallbacks &&
    !facts.targetComplete && !facts.preflightClean && !facts.callbackTargetsDistinct &&
    !facts.eventIdentitiesDistinct && !facts.cleanupVerified && !facts.targetAccountingComplete &&
    !facts.providerAccountingComplete

def stoppedLifecycle : Bool :=
  !facts.completeLifecycle && !facts.controlCallbackObserved &&
    (!facts.targetAccountingComplete || !facts.providerAccountingComplete)

def outcomeFactsMatch : Bool :=
  match facts.outcome with
  | .notEligible => facts.emptyLifecycle
  | .controlIncomplete => facts.targetRequestCount == 0 && !facts.targetComplete &&
    !facts.preflightClean && facts.noCallbacks && !facts.targetAccountingComplete &&
    !facts.providerAccountingComplete
  | .preflightContaminated => facts.targetRequestCount == 0 && facts.providerRequestCount > 0 &&
    !facts.preflightClean && !facts.noCallbacks && facts.callbackTargetsDistinct &&
    !facts.targetComplete && !facts.targetAccountingComplete && !facts.providerAccountingComplete
  | .controlCallbackObserved => facts.preflightClean && facts.controlCallbackObserved &&
    facts.targetRequestCount > 0 && !facts.targetComplete && !facts.targetAccountingComplete &&
    !facts.providerAccountingComplete
  | .noCallback => facts.completeLifecycle && facts.noCallbacks
  | .candidateOnly => facts.completeLifecycle && facts.candidateCallbackObserved &&
    !facts.replayCallbackObserved && !facts.eventIdentitiesDistinct
  | .replayOnly => facts.completeLifecycle && !facts.candidateCallbackObserved &&
    facts.replayCallbackObserved && !facts.eventIdentitiesDistinct
  | .correlationMismatch => facts.preflightClean && !facts.controlCallbackObserved &&
    (facts.candidateCallbackObserved || facts.replayCallbackObserved) &&
    !facts.eventIdentitiesDistinct
  | .cleanupIncomplete => facts.preflightClean && !facts.controlCallbackObserved &&
    !facts.cleanupVerified
  | .cancelled | .budgetExhausted | .incomplete => facts.stoppedLifecycle
  | .repeatedExternalEntityResolutionObserved => facts.completePositive

end XmlExternalEntityAuditFacts

def validateAuditFacts (facts : XmlExternalEntityAuditFacts) :
    Except XmlExternalEntityAuditError Unit := do
  if facts.invalidCounts then throw .invalidCounts
  if !facts.correlated then throw .invalidCorrelation
  if facts.positiveOutcome ≠ facts.completePositive then throw .invalidOutcome
  if !facts.outcomeFactsMatch then throw .invalidOutcome
  if facts.itemProjected ≠ facts.positiveOutcome then throw .invalidProjection

/-- What the audit accepts. -/
theorem validateAuditFacts_eq_ok {facts : XmlExternalEntityAuditFacts} :
    validateAuditFacts facts = .ok () ↔ facts.invalidCounts = false ∧ facts.correlated = true ∧
      facts.positiveOutcome = facts.completePositive ∧ facts.outcomeFactsMatch = true ∧
      facts.itemProjected = facts.positiveOutcome := by
  unfold validateAuditFacts
  cases facts.invalidCounts <;> cases facts.correlated <;> cases facts.positiveOutcome <;>
    cases facts.completePositive <;> cases facts.outcomeFactsMatch <;>
    cases facts.itemProjected <;> decide

end Termivar.XmlReview
