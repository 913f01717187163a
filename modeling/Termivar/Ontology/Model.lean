/-
# The domain ontology

`termivar-core/src/ontology.rs`: concepts, relation types with their declared
semantics, and the axioms between concepts; the three writing operations and
the query `is_related`, which walks the axioms of a relation and, backwards,
those of its inverse.
-/
import Termivar.Command
import Termivar.GraphSearch
import Termivar.Identifier

namespace Termivar

abbrev ConceptId : Type := Identifier .concept

abbrev RelationTypeId : Type := Identifier .relationType

inductive OntologyRecordKind where
  | concept
  | relationType
  deriving DecidableEq

/-- Validation and consistency errors for ontology operations. -/
inductive OntologyError where
  | emptyValue (field : String)
  | identityConflict (kind : OntologyRecordKind) (id : String)
  | unknownConcept (id : ConceptId)
  | unknownRelationType (id : RelationTypeId)
  | cycleDetected (relation : RelationTypeId) (subject object : ConceptId)
  deriving DecidableEq

/-! ### Definitions -/

/-- A named concept in the domain ontology. -/
structure OntologyConcept where
  id : ConceptId
  label : String
  labelNotBlank : isBlank label = false

instance : DecidableEq OntologyConcept := fun a b =>
  decidable_of_iff (a.id = b.id ∧ a.label = b.label) (by cases a; cases b; simp)

/-- Formal behavior attached to an ontology relation type. -/
structure RelationSemantics where
  transitive : Bool := false
  symmetric : Bool := false
  reflexive : Bool := false
  acyclic : Bool := false
  deriving DecidableEq

/-- Definition of a semantic relationship used by ontology axioms. -/
structure OntologyRelationType where
  id : RelationTypeId
  label : String
  labelNotBlank : isBlank label = false
  semantics : RelationSemantics := {}
  inverse : Option RelationTypeId := none

instance : DecidableEq OntologyRelationType := fun a b =>
  decidable_of_iff (a.id = b.id ∧ a.label = b.label ∧ a.semantics = b.semantics ∧
    a.inverse = b.inverse) (by cases a; cases b; simp)

/-- One semantic statement between two registered concepts. -/
structure OntologyAxiom where
  subject : ConceptId
  relation : RelationTypeId
  object : ConceptId

namespace OntologyAxiom

instance : Ord OntologyAxiom where
  compare := compareLex (compareOn (·.subject))
    (compareLex (compareOn (·.relation)) (compareOn (·.object)))

instance : Std.TransOrd OntologyAxiom :=
  inferInstanceAs (Std.TransCmp (compareLex (compareOn OntologyAxiom.subject)
    (compareLex (compareOn OntologyAxiom.relation) (compareOn OntologyAxiom.object))))

instance : Std.LawfulEqOrd OntologyAxiom :=
  lawfulEqCmp_compareLex (by simp [compareOn]) (by simp [compareOn, compareLex]) (by
    rintro ⟨s, r, o⟩ ⟨s', r', o'⟩ h1 h2
    simp only [compareOn, compareLex, Ordering.then_eq_eq,
      Std.LawfulEqOrd.compare_eq_iff_eq] at h1 h2
    rw [h1, h2.1, h2.2])

end OntologyAxiom

/-- Result of an idempotent ontology write. -/
inductive OntologyWrite where
  | inserted
  | unchanged
  deriving DecidableEq

structure Ontology where
  concepts : BTreeMap ConceptId OntologyConcept
  relationTypes : BTreeMap RelationTypeId OntologyRelationType
  axioms : BTreeSet OntologyAxiom

/-! ### The standard relations -/

namespace Ontology

def isA : RelationTypeId := ⟨"is_a", by decide⟩
def partOf : RelationTypeId := ⟨"part_of", by decide⟩
def hasPart : RelationTypeId := ⟨"has_part", by decide⟩
def dependsOn : RelationTypeId := ⟨"depends_on", by decide⟩
def requiredBy : RelationTypeId := ⟨"required_by", by decide⟩
def implies : RelationTypeId := ⟨"implies", by decide⟩
def associatedWith : RelationTypeId := ⟨"associated_with", by decide⟩
def implementedIn : RelationTypeId := ⟨"implemented_in", by decide⟩
def provides : RelationTypeId := ⟨"provides", by decide⟩

end Ontology

open Ontology in
def standardRelationTypes : List OntologyRelationType :=
  [{ id := isA, label := "is a", labelNotBlank := by decide
     semantics := { transitive := true, reflexive := true, acyclic := true } },
   { id := partOf, label := "part of", labelNotBlank := by decide
     semantics := { transitive := true, acyclic := true }
     inverse := some hasPart },
   { id := hasPart, label := "has part", labelNotBlank := by decide
     semantics := { transitive := true, acyclic := true }
     inverse := some partOf },
   { id := dependsOn, label := "depends on", labelNotBlank := by decide
     inverse := some requiredBy },
   { id := requiredBy, label := "required by", labelNotBlank := by decide
     inverse := some dependsOn },
   { id := implies, label := "implies", labelNotBlank := by decide
     semantics := { transitive := true, reflexive := true } },
   { id := associatedWith, label := "associated with", labelNotBlank := by decide
     semantics := { symmetric := true } },
   { id := implementedIn, label := "implemented in", labelNotBlank := by decide },
   { id := provides, label := "provides", labelNotBlank := by decide }]

namespace Ontology

/-- An empty domain vocabulary with the standard relation definitions. -/
def new : Ontology where
  concepts := ∅
  relationTypes := standardRelationTypes.foldl (fun types t => types.insert t.id t) ∅
  axioms := ∅

/-! ### Queries -/

variable (o : Ontology) (subject : ConceptId)

def ensureConcept (id : ConceptId) : Except OntologyError OntologyConcept :=
  okOr o.concepts[id]? (.unknownConcept id)

def ensureRelationType (id : RelationTypeId) :
    Except OntologyError OntologyRelationType :=
  okOr o.relationTypes[id]? (.unknownRelationType id)

/-- What one axiom adds to the neighbors of a concept. -/
def neighbor (relationType : OntologyRelationType) (ax : OntologyAxiom) :
    Option ConceptId :=
  if ax.relation = relationType.id ∧ ax.subject = subject then some ax.object
  else if ax.object = subject ∧ ((ax.relation = relationType.id ∧ relationType.semantics.symmetric) ∨
      relationType.inverse = some ax.relation) then some ax.subject
  else none

def neighbors (relationType : OntologyRelationType) (subject : ConceptId) :
    BTreeSet ConceptId :=
  .ofList (o.axioms.toList.filterMap (neighbor subject relationType))

/-- More turns than the loop of `is_related` can take. -/
def searchFuel : Nat := o.axioms.size + 2 * o.axioms.size * o.axioms.size + 1

def isRelated (relation : RelationTypeId)
    (object : ConceptId) : Except OntologyError Bool := do
  let _ ← o.ensureConcept subject
  let _ ← o.ensureConcept object
  let relationType ← o.ensureRelationType relation
  if relationType.semantics.reflexive ∧ subject = object then return true
  let direct := o.neighbors relationType subject
  if direct.contains object then return true
  if !relationType.semantics.transitive then return false
  return GraphSearch.search (o.neighbors relationType) object o.searchFuel {subject} direct.toList

end Ontology

/-! ### Writes -/

abbrev OntologyCommand (α : Type) : Type := Command Ontology OntologyError α

def addConcept (concept : OntologyConcept) : OntologyCommand OntologyWrite := do
  let o ← get
  match o.concepts[concept.id]? with
  | some existing =>
    if existing = concept then return .unchanged
    else throw (.identityConflict .concept concept.id.value)
  | none => do
    set { o with concepts := o.concepts.insert concept.id concept }
    return .inserted

def addRelationType (relationType : OntologyRelationType) : OntologyCommand OntologyWrite := do
  let o ← get
  match o.relationTypes[relationType.id]? with
  | some existing =>
    if existing = relationType then return .unchanged
    else throw (.identityConflict .relationType relationType.id.value)
  | none => do
    set { o with relationTypes := o.relationTypes.insert relationType.id relationType }
    return .inserted

/-- The acyclicity check of `add_axiom`. -/
def closesCycle (o : Ontology) (relationType : OntologyRelationType) (ax : OntologyAxiom) :
    Except OntologyError Bool :=
  if relationType.semantics.acyclic then
    if ax.subject = ax.object then pure true
    else o.isRelated ax.object ax.relation ax.subject
  else pure false

def addAxiom (ax : OntologyAxiom) : OntologyCommand OntologyWrite := do
  let o ← get
  let _ ← o.ensureConcept ax.subject
  let _ ← o.ensureConcept ax.object
  let relationType ← o.ensureRelationType ax.relation
  if ← closesCycle o relationType ax then
    throw (.cycleDetected ax.relation ax.subject ax.object)
  if ← o.isRelated ax.subject ax.relation ax.object then return .unchanged
  set { o with axioms := o.axioms.insert ax }
  return if o.axioms.contains ax then .unchanged else .inserted

/-- A write on the ontology. -/
inductive OntologyOp where
  | addConcept (concept : OntologyConcept)
  | addRelationType (relationType : OntologyRelationType)
  | addAxiom (ax : OntologyAxiom)

def OntologyOp.exec : OntologyOp → OntologyCommand OntologyWrite
  | .addConcept concept => Termivar.addConcept concept
  | .addRelationType relationType => Termivar.addRelationType relationType
  | .addAxiom ax => Termivar.addAxiom ax

/-- A write that keeps to the relation types there are. -/
inductive VocabularyOp where
  | addConcept (concept : OntologyConcept)
  | addAxiom (ax : OntologyAxiom)

def VocabularyOp.op : VocabularyOp → OntologyOp
  | .addConcept concept => .addConcept concept
  | .addAxiom ax => .addAxiom ax

def VocabularyOp.exec (op : VocabularyOp) : OntologyCommand OntologyWrite := op.op.exec

end Termivar
