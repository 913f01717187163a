/-
# What `is_related` answers

The links of a relation type are its own axioms, the reversed ones if it is
symmetric, and the reversed axioms of its inverse (`Linked`): the neighbors
the code collects. `is_related` answers yes for equal concepts under a
reflexive type, for linked concepts, and under a transitive type for concepts
joined by a walk over links (`Related`); between a concept and itself it does
not follow walks.
-/
import Termivar.Ontology.Model

namespace Termivar.Ontology

open Relation GraphSearch List

variable {o : Ontology} {t : OntologyRelationType} {a b : ConceptId} {R : RelationTypeId}

/-! ### Links -/

/-- `a` is linked to `b` by the axioms, under the relation type. -/
def Linked (axioms : BTreeSet OntologyAxiom) (t : OntologyRelationType) (a b : ConceptId) : Prop :=
  ⟨a, t.id, b⟩ ∈ axioms ∨ (t.semantics.symmetric = true ∧ ⟨b, t.id, a⟩ ∈ axioms) ∨
    ∃ inverse, t.inverse = some inverse ∧ ⟨b, inverse, a⟩ ∈ axioms

theorem mem_neighbors : b ∈ o.neighbors t a ↔ Linked o.axioms t a b := by
  have hmem : b ∈ o.neighbors t a ↔ ∃ ax ∈ o.axioms, neighbor a t ax = some b := by
    unfold neighbors
    rw [Std.ExtTreeSet.mem_ofList]
    simp only [contains_iff_mem, mem_filterMap, Std.ExtTreeSet.mem_toList]
  rw [hmem]
  constructor
  · rintro ⟨⟨s, r, x⟩, hax, hn⟩
    unfold neighbor at hn
    split_ifs at hn with h1 h2
    · obtain ⟨rfl, rfl⟩ := h1
      cases hn
      exact Or.inl hax
    · obtain ⟨rfl, ⟨rfl, hsymm⟩ | hinv⟩ := h2
      · cases hn
        exact Or.inr (Or.inl ⟨hsymm, hax⟩)
      · cases hn
        exact Or.inr (Or.inr ⟨r, hinv, hax⟩)
  · rintro (hax | ⟨hsymm, hax⟩ | ⟨inverse, hinv, hax⟩)
    · exact ⟨_, hax, by simp [neighbor]⟩
    · refine ⟨_, hax, ?_⟩
      by_cases hba : b = a
      · simp [neighbor, hba]
      · simp [neighbor, hba, hsymm]
    · refine ⟨_, hax, ?_⟩
      by_cases hba : b = a
      · simp [neighbor, hba, hinv]
      · simp [neighbor, hba, hinv]

theorem linked_eq_edge (o : Ontology) (t : OntologyRelationType) :
    Edge (o.neighbors t) = Linked o.axioms t := by
  funext a b
  exact propext mem_neighbors

/-! ### The fuel of the search -/

/-- The concepts the axioms speak of. -/
def mentioned (o : Ontology) : Finset ConceptId :=
  (o.axioms.toList.map (·.subject)).toFinset ∪ (o.axioms.toList.map (·.object)).toFinset

theorem card_mentioned (o : Ontology) : (mentioned o).card ≤ 2 * o.axioms.size := by
  have h1 : (o.axioms.toList.map (·.subject)).toFinset.card ≤ o.axioms.size := by
    refine le_trans (toFinset_card_le _) ?_
    rw [length_map, Std.ExtTreeSet.length_toList]
  have h2 : (o.axioms.toList.map (·.object)).toFinset.card ≤ o.axioms.size := by
    refine le_trans (toFinset_card_le _) ?_
    rw [length_map, Std.ExtTreeSet.length_toList]
  have h3 := Finset.card_union_le (o.axioms.toList.map (·.subject)).toFinset
    (o.axioms.toList.map (·.object)).toFinset
  unfold mentioned
  omega

theorem mem_mentioned_of_linked (h : Linked o.axioms t a b) : a ∈ mentioned o := by
  simp only [mentioned, Finset.mem_union, mem_toFinset, mem_map, Std.ExtTreeSet.mem_toList]
  rcases h with h | ⟨-, h⟩ | ⟨inverse, -, h⟩
  · exact Or.inl ⟨_, h, rfl⟩
  · exact Or.inr ⟨_, h, rfl⟩
  · exact Or.inr ⟨_, h, rfl⟩

theorem neighbors_of_not_mentioned (h : a ∉ mentioned o) : o.neighbors t a = ∅ := by
  refine Std.ExtTreeSet.ext_mem fun b => ?_
  rw [mem_neighbors]
  refine iff_of_false (fun hl => h (mem_mentioned_of_linked hl)) ?_
  simp

theorem size_neighbors_le (o : Ontology) (t : OntologyRelationType) (a : ConceptId) :
    (o.neighbors t a).size ≤ o.axioms.size := by
  unfold neighbors
  refine le_trans Std.ExtTreeSet.size_ofList_le ?_
  refine le_trans (length_filterMap_le _ _) ?_
  rw [Std.ExtTreeSet.length_toList]

/-- The loop of `is_related` ends before its fuel does. -/
theorem fuel_suffices (o : Ontology) (t : OntologyRelationType) (a : ConceptId) :
    (o.neighbors t a).size + pending (mentioned o) (o.neighbors t) {a} < o.searchFuel := by
  have hdirect := size_neighbors_le o t a
  have hpend : pending (mentioned o) (o.neighbors t) {a} ≤ 2 * o.axioms.size * o.axioms.size := by
    calc pending (mentioned o) (o.neighbors t) {a}
        ≤ ∑ node ∈ mentioned o, (o.neighbors t node).size :=
          Finset.sum_le_sum_of_subset (Finset.filter_subset _ _)
      _ ≤ ∑ _node ∈ mentioned o, o.axioms.size :=
          Finset.sum_le_sum fun node _ => size_neighbors_le o t node
      _ = (mentioned o).card * o.axioms.size := by rw [Finset.sum_const, smul_eq_mul]
      _ ≤ 2 * o.axioms.size * o.axioms.size := Nat.mul_le_mul_right _ (card_mentioned o)
  unfold searchFuel
  omega

/-! ### The answer -/

/-- The concepts are related by the axioms, under the semantics of the type. -/
def Related (axioms : BTreeSet OntologyAxiom) (t : OntologyRelationType) (a b : ConceptId) : Prop :=
  (t.semantics.reflexive = true ∧ a = b) ∨ Linked axioms t a b ∨
    (t.semantics.transitive = true ∧ TransGen (Linked axioms t) a b)

/-- The two concepts and the relation type are registered. -/
structure Registered (o : Ontology) (a : ConceptId) (R : RelationTypeId) (b : ConceptId)
    (t : OntologyRelationType) : Prop where
  subject : ∃ concept, o.concepts[a]? = some concept
  object : ∃ concept, o.concepts[b]? = some concept
  relation : o.relationTypes[R]? = some t

variable (h : Registered o a R b t)

include h

theorem Registered.swap : Registered o b R a t :=
  ⟨h.object, h.subject, h.relation⟩

/-- What `is_related` computes once its arguments are found. -/
theorem isRelated_eq : o.isRelated a R b = .ok (if t.semantics.reflexive = true ∧ a = b then true
    else if (o.neighbors t a).contains b = true then true
    else if t.semantics.transitive = true then
      search (o.neighbors t) b o.searchFuel {a} (o.neighbors t a).toList
    else false) := by
  obtain ⟨ca, ha⟩ := h.subject
  obtain ⟨cb, hb⟩ := h.object
  simp only [isRelated, ensureConcept, ensureRelationType, ha, hb, h.relation, okOr]
  show (if t.semantics.reflexive = true ∧ a = b then _ else _) = _
  by_cases h1 : t.semantics.reflexive = true ∧ a = b
  · rw [if_pos h1, if_pos h1]
    rfl
  rw [if_neg h1, if_neg h1]
  show (if (o.neighbors t a).contains b = true then _ else _) = _
  by_cases h2 : (o.neighbors t a).contains b = true
  · rw [if_pos h2, if_pos h2]
    rfl
  rw [if_neg h2, if_neg h2]
  cases ht : t.semantics.transitive <;> rfl

theorem isRelated_total : ∃ v, o.isRelated a R b = .ok v :=
  ⟨_, isRelated_eq h⟩

theorem isRelated_sound (hyes : o.isRelated a R b = .ok true) :
    Related o.axioms t a b := by
  rw [isRelated_eq h] at hyes
  have hv := Except.ok.inj hyes
  split_ifs at hv with h1 h2 h3
  · exact Or.inl h1
  · exact Or.inr (Or.inl (mem_neighbors.mp h2))
  · obtain ⟨node, hnode, hrch⟩ := search_sound _ _ _ hv
    have hedge : Edge (o.neighbors t) a node := Std.ExtTreeSet.mem_toList.mp hnode
    have hwalk : TransGen (Edge (o.neighbors t)) a b := TransGen.head' hedge hrch
    rw [linked_eq_edge] at hwalk
    exact Or.inr (Or.inr ⟨h3, hwalk⟩)

theorem isRelated_complete (hr : Related o.axioms t a b)
    (hloop : a = b → t.semantics.reflexive = true ∨ Linked o.axioms t a b) :
    o.isRelated a R b = .ok true := by
  rw [isRelated_eq h]
  congr 1
  by_cases h1 : t.semantics.reflexive = true ∧ a = b
  · rw [if_pos h1]
  rw [if_neg h1]
  by_cases h2 : Linked o.axioms t a b
  · have hc : (o.neighbors t a).contains b = true := mem_neighbors.mpr h2
    rw [if_pos hc]
  have h2' : ¬ (o.neighbors t a).contains b = true := fun hc => h2 (mem_neighbors.mp hc)
  rw [if_neg h2']
  rcases hr with hr | hr | ⟨ht, hwalk⟩
  · exact absurd hr h1
  · exact absurd hr h2
  · have hne : a ≠ b := fun hab => by
      rcases hloop hab with hrefl | hl
      · exact h1 ⟨hrefl, hab⟩
      · exact h2 hl
    rw [if_pos ht]
    rw [← linked_eq_edge] at hwalk
    exact (walk_iff (fun x hx => neighbors_of_not_mentioned hx) hne (fuel_suffices o t a)).mpr hwalk

/-- Between different concepts the answer is exact. -/
theorem isRelated_iff_of_ne (hne : a ≠ b) :
    o.isRelated a R b = .ok true ↔ Related o.axioms t a b :=
  ⟨isRelated_sound h, fun hr => isRelated_complete h hr fun hab => absurd hab hne⟩

omit h

end Termivar.Ontology
