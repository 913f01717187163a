/-
# Version applicability

`termivar-exploit/src/applicability.rs` and the applicability requirements of
`manifest.rs`: how a version requirement is checked and brought into its
canonical form, the sorted set of its comparators, and what it is written as.
Requirements are parsed, printed and matched by the `semver` package, which is
a parameter here.
-/
import Termivar.Artifact.Builder
import Termivar.Exploit.Manifest
import Termivar.Rules.Wire

namespace Termivar.Exploit

/-- Version requirements of the `semver` package: the comparators of a text,
what a comparator is printed as, and the versions that comparators match. -/
structure Semver where
  Comparator : Type
  Version : Type
  parse : String → Option (List Comparator)
  display : Comparator → String
  admits : List Comparator → Version → Bool

/-- Errors of the applicability contracts. -/
inductive ApplicabilityError where
  | invalidVersionApplicability
  | model (failure : ExploitModelError)
  deriving DecidableEq

/-- An identity checked like the manifest's, by the name of its field. -/
structure CheckedId (field : String) where
  value : String
  checked : validateId value field = .ok ()
  deriving DecidableEq

instance {field : String} : Ord (CheckedId field) where
  compare := compareOn (·.value)

abbrev ExploitPrerequisiteId : Type := CheckedId "prerequisite_id"

/-! ### Version texts -/

def maxRequirementBytes : Nat := 128

/-- The characters of a version, and those of a requirement. -/
def allowedVersionChar (requirement : Bool) (c : Char) : Bool :=
  c.isAlphanum || c = '.' || c = '_' || c = '+' || c = '-' ||
    (requirement && (c = '<' || c = '>' || c = '=' || c = '~' || c = '^' || c = ',' || c = '*' ||
      c = '|' || c = ' '))

def validateVersionText (value : String) (requirement : Bool) : Except ApplicabilityError Unit :=
  let maximum := if requirement then maxRequirementBytes else maxIdBytes
  if value = "" ∨ maximum < value.utf8ByteSize ∨ hasOuterWhitespace value ∨
      !value.toList.all (allowedVersionChar requirement) ∨
      (requirement ∧ !value.toList.any Char.isDigit) then
    .error .invalidVersionApplicability
  else .ok ()

/-- `join(", ")`. -/
def joinComma : List String → String
  | [] => ""
  | [text] => text
  | text :: texts => text ++ ", " ++ joinComma texts

/-- Declarative vendor-version interpretation. -/
inductive VersionApplicability where
  | exact (value : String)
  | semanticVersionRequirement (value : String)
  | evidencePredicate (value : ExploitPrerequisiteId)
  | unsupported
  deriving DecidableEq

section Requirements

variable (S : Semver)

/-- The texts of comparators, each once and in order. -/
def canonicalText (comparators : List S.Comparator) : String :=
  joinComma (Std.ExtTreeSet.ofList (comparators.map S.display)).toList

namespace VersionApplicability

def normalized : VersionApplicability → Except ApplicabilityError VersionApplicability
  | .exact value => do
    validateVersionText value false
    return .exact value
  | .semanticVersionRequirement value => do
    validateVersionText value true
    match S.parse value with
    | none => throw .invalidVersionApplicability
    | some comparators => return .semanticVersionRequirement (canonicalText S comparators)
  | .evidencePredicate value => .ok (.evidencePredicate value)
  | .unsupported => .ok .unsupported

/-- `VersionApplicability::exact`. -/
def exactVersion (value : String) : Except ApplicabilityError VersionApplicability :=
  normalized S (.exact value)

/-- `VersionApplicability::semantic_version_requirement`. -/
def requirement (value : String) : Except ApplicabilityError VersionApplicability :=
  normalized S (.semanticVersionRequirement value)

def validate (version : VersionApplicability) : Except ApplicabilityError Unit := do
  let _ ← normalized S version
  return ()

end VersionApplicability

/-! ### The wire form -/

inductive VersionScheme where
  | exact
  | semanticVersionRequirement
  | evidencePredicate
  | unsupported

def VersionScheme.wireName : VersionScheme → String
  | .exact => "exact"
  | .semanticVersionRequirement => "semantic-version-requirement"
  | .evidencePredicate => "evidence-predicate"
  | .unsupported => "unsupported"

def VersionScheme.deserialize : Data → Except WireError VersionScheme :=
  Wire.readVariant [.exact, .semanticVersionRequirement, .evidencePredicate, .unsupported]
    VersionScheme.wireName

inductive SchemeField where
  | scheme
  | value
  deriving DecidableEq

/-- The content is kept until the scheme is known. -/
def SchemeField.Slot : SchemeField → Type
  | .scheme => VersionScheme
  | .value => Data

def schemeSchema : Record.Schema SchemeField Data WireError SchemeField.Slot where
  fields := [.scheme, .value]
  name
    | .scheme => "scheme"
    | .value => "value"
  read
    | .scheme => VersionScheme.deserialize
    | .value => Except.ok
  duplicate := .duplicateField
  unknown := some .unknownField
  nodup := by decide
  named := by decide

inductive ApplicabilityWireError where
  | wire (failure : WireError)
  | applicability (failure : ApplicabilityError)
  deriving DecidableEq

def readPrerequisiteId (data : Data) : Except ApplicabilityWireError ExploitPrerequisiteId := do
  let value ← (Wire.readText data).mapError .wire
  match checked : validateId value "prerequisite_id" with
  | .ok () => return ⟨value, checked⟩
  | .error failure => throw (.applicability (.model failure))

namespace VersionApplicability

def serialize : VersionApplicability → Data
  | .exact value => .map [("scheme", .text "exact"), ("value", .text value)]
  | .semanticVersionRequirement value =>
    .map [("scheme", .text "semantic-version-requirement"), ("value", .text value)]
  | .evidencePredicate value =>
    .map [("scheme", .text "evidence-predicate"), ("value", .text value.value)]
  | .unsupported => .map [("scheme", .text "unsupported")]

/-- The variant of a scheme, with its content. -/
def ofContent : VersionScheme → Option Data → Except ApplicabilityWireError VersionApplicability
  | .exact, some data => do return .exact (← (Wire.readText data).mapError .wire)
  | .semanticVersionRequirement, some data => do
    return .semanticVersionRequirement (← (Wire.readText data).mapError .wire)
  | .evidencePredicate, some data => do return .evidencePredicate (← readPrerequisiteId data)
  | .unsupported, none => .ok .unsupported
  | .unsupported, some .null => .ok .unsupported
  | .unsupported, some _ => .error (.wire .invalidType)
  | _, none => .error (.wire (.missingField "value"))

def readRaw : Data → Except ApplicabilityWireError VersionApplicability
  | .map entries => do
    let slots ← (schemeSchema.collect entries).mapError .wire
    let scheme : VersionScheme ← (Wire.require "scheme" (slots .scheme)).mapError .wire
    ofContent scheme (slots .value)
  | _ => .error (.wire .invalidType)

/-- Reads the raw rule, and brings it into its canonical form. -/
def deserialize (data : Data) : Except ApplicabilityWireError VersionApplicability := do
  let raw ← readRaw data
  (normalized S raw).mapError .applicability

/-- `record_version_applicable` with a semantic version: the requirement is
parsed and matched. -/
def admits (version : VersionApplicability) (actual : S.Version) : Bool :=
  match version with
  | .semanticVersionRequirement required =>
    (S.parse required).any fun comparators => S.admits comparators actual
  | _ => false

end VersionApplicability

/-! ### Applicability requirements -/

inductive EvidenceStrength where
  | product
  | version
  | prerequisites
  | independentlyVerified

def strengthRank : EvidenceStrength → Nat
  | .product => 0
  | .version => 1
  | .prerequisites => 2
  | .independentlyVerified => 3

def EvidenceStrength.satisfies (supplied required : EvidenceStrength) : Bool :=
  strengthRank required ≤ strengthRank supplied

inductive AuthenticationPrerequisite where
  | none
  | user
  | administrator
  | unknown
  deriving DecidableEq

inductive UserInteractionPrerequisite where
  | none
  | required
  | unknown
  deriving DecidableEq

structure ExploitApplicabilityRequirements where
  expectedVendor : CheckedId "vendor_id"
  expectedProduct : CheckedId "product_id"
  expectedComponent : CheckedId "component_id"
  version : VersionApplicability
  prerequisites : BTreeSet ExploitPrerequisiteId
  requiredEvidenceStrength : EvidenceStrength
  authentication : AuthenticationPrerequisite
  userInteraction : UserInteractionPrerequisite

def checkSetLimit (field : String) (count : Nat) : Except ExploitModelError Unit :=
  if maxManifestListItems < count then .error (.limitExceeded field maxManifestListItems) else .ok ()

namespace ExploitApplicabilityRequirements

def normalized (self : ExploitApplicabilityRequirements) :
    Except ApplicabilityError ExploitApplicabilityRequirements := do
  return { self with version := ← self.version.normalized S }

def validate (self : ExploitApplicabilityRequirements) : Except ApplicabilityError Unit := do
  (checkSetLimit "prerequisites" self.prerequisites.size).mapError .model
  self.version.validate S
  let hasPrerequisiteFacts := !self.prerequisites.isEmpty || self.authentication ≠ .none ||
    self.userInteraction ≠ .none
  if self.authentication = .unknown ∨ self.userInteraction = .unknown then
    throw (.model (.inconsistentContract "unknown prerequisite facts cannot become satisfied"))
  if hasPrerequisiteFacts ∧ !self.requiredEvidenceStrength.satisfies .prerequisites then
    throw (.model
      (.inconsistentContract "declared prerequisites require prerequisite-strength evidence"))

/-- `try_from`: the raw requirements in canonical form, checked. -/
def tryFrom (raw : ExploitApplicabilityRequirements) :
    Except ApplicabilityError ExploitApplicabilityRequirements := do
  let value ← raw.normalized S
  value.validate S
  return value

end ExploitApplicabilityRequirements

end Requirements

end Termivar.Exploit
