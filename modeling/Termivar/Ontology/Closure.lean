/-
# The relation an ontology answers for

`Generated` is the relation that a set of axioms generates under the declared
semantics of the relation types: reflexive, symmetric, transitive and inverse
where declared. Over the standard relations `is_related` answers exactly for
the relation generated from all the axioms accepted so far, although an axiom
that was already implied is accepted without being stored.
-/
import Termivar.Ontology.Acyclicity

namespace Termivar.Ontology

open Relation GraphSearch Command List Option

/-- A table of relation types. -/
abbrev TypeTable : Type := RelationTypeId → Option OntologyRelationType

/-- The relations generated from the asserted axioms under the declared
semantics of the types. -/
inductive Generated (types : TypeTable) (asserted : OntologyAxiom → Prop) :
    RelationTypeId → ConceptId → ConceptId → Prop
  | ofAxiom {R : RelationTypeId} {a b : ConceptId} :
      asserted ⟨a, R, b⟩ → Generated types asserted R a b
  | refl {R : RelationTypeId} {t : OntologyRelationType} (a : ConceptId) :
      types R = some t → t.semantics.reflexive = true → Generated types asserted R a a
  | symm {R : RelationTypeId} {t : OntologyRelationType} {a b : ConceptId} :
      types R = some t → t.semantics.symmetric = true → Generated types asserted R a b →
      Generated types asserted R b a
  | trans {R : RelationTypeId} {t : OntologyRelationType} {a b c : ConceptId} :
      types R = some t → t.semantics.transitive = true → Generated types asserted R a b →
      Generated types asserted R b c → Generated types asserted R a c
  | inverse {R S : RelationTypeId} {t : OntologyRelationType} {a b : ConceptId} :
      types R = some t → t.inverse = some S → Generated types asserted S a b →
      Generated types asserted R b a

section Generated

variable {types : TypeTable} {asserted asserted' : OntologyAxiom → Prop} {R : RelationTypeId}
  {t : OntologyRelationType} {a b : ConceptId}

/-- Axioms that are generated generate nothing more. -/
theorem Generated.bind (h : Generated types asserted R a b)
    (hsub : ∀ ax, asserted ax → Generated types asserted' ax.relation ax.subject ax.object) :
    Generated types asserted' R a b := by
  induction h with
  | ofAxiom hax => exact hsub _ hax
  | refl a ht hr => exact Generated.refl a ht hr
  | symm ht hs _ ih => exact Generated.symm ht hs ih
  | trans ht htr _ _ ih1 ih2 => exact Generated.trans ht htr ih1 ih2
  | inverse ht hi _ ih => exact Generated.inverse ht hi ih

theorem Generated.mono (h : Generated types asserted R a b)
    (hsub : ∀ ax, asserted ax → asserted' ax) : Generated types asserted' R a b :=
  h.bind fun ax hax => Generated.ofAxiom (hsub ax hax)

/-- Types are under their ids, symmetric types have no inverse, and an inverse
is declared on both sides under the same semantics. -/
structure Paired (types : TypeTable) : Prop where
  ids : ∀ {R t}, types R = some t → t.id = R
  symmetric : ∀ {R t}, types R = some t → t.semantics.symmetric = true → t.inverse = none
  inverse : ∀ {R S t}, types R = some t → t.inverse = some S →
    ∃ s, types S = some s ∧ s.inverse = some R ∧ s.semantics = t.semantics

variable {axioms : BTreeSet OntologyAxiom}

theorem Linked.generated (ht : types R = some t) (hid : t.id = R) (h : Linked axioms t a b) :
    Generated types (· ∈ axioms) R a b := by
  subst hid
  rcases h with h | ⟨hs, h⟩ | ⟨S, hi, h⟩
  · exact Generated.ofAxiom h
  · exact Generated.symm ht hs (Generated.ofAxiom h)
  · exact Generated.inverse ht hi (Generated.ofAxiom h)

theorem Related.generated (ht : types R = some t) (hid : t.id = R) (h : Related axioms t a b) :
    Generated types (· ∈ axioms) R a b := by
  rcases h with ⟨hr, rfl⟩ | h | ⟨htr, h⟩
  · exact Generated.refl a ht hr
  · exact h.generated ht hid
  · induction h with
    | single hab => exact hab.generated ht hid
    | tail _ hbc ih => exact Generated.trans ht htr ih (hbc.generated ht hid)

/-- Under a symmetric type links go both ways. -/
theorem Linked.symm (hs : t.semantics.symmetric = true) (hi : t.inverse = none)
    (h : Linked axioms t a b) : Linked axioms t b a := by
  rcases h with h | ⟨-, h⟩ | ⟨S, hS, -⟩
  · exact Or.inr (Or.inl ⟨hs, h⟩)
  · exact Or.inl h
  · rw [hi] at hS
    cases hS

theorem Related.symm (hs : t.semantics.symmetric = true) (hi : t.inverse = none)
    (h : Related axioms t a b) : Related axioms t b a := by
  rcases h with ⟨hr, hab⟩ | h | ⟨htr, h⟩
  · exact Or.inl ⟨hr, hab.symm⟩
  · exact Or.inr (Or.inl (h.symm hs hi))
  · refine Or.inr (Or.inr ⟨htr, ?_⟩)
    exact TransGen.mono (fun x y hxy => Linked.symm hs hi hxy) _ _ (transGen_swap.mpr h)

theorem Related.trans {c : ConceptId} (htr : t.semantics.transitive = true)
    (h1 : Related axioms t a b) (h2 : Related axioms t b c) : Related axioms t a c := by
  have hwalk : ∀ {x y}, Related axioms t x y → ReflTransGen (Linked axioms t) x y := by
    rintro x y (⟨-, rfl⟩ | h | ⟨-, h⟩)
    · exact ReflTransGen.refl
    · exact ReflTransGen.single h
    · exact h.to_reflTransGen
  rcases h1 with ⟨-, rfl⟩ | h1 | ⟨-, h1⟩
  · exact h2
  · exact Or.inr (Or.inr ⟨htr, TransGen.head' h1 (hwalk h2)⟩)
  · exact Or.inr (Or.inr ⟨htr, TransGen.trans_left h1 (hwalk h2)⟩)

/-- The links of a type are the reversed links of its inverse. -/
theorem Linked.inverse {s : OntologyRelationType} (hns : s.semantics.symmetric ≠ true)
    (hs : s.inverse = some t.id) (ht : t.inverse = some s.id) (h : Linked axioms s a b) :
    Linked axioms t b a := by
  rcases h with h | ⟨hsymm, -⟩ | ⟨S, hS, h⟩
  · exact Or.inr (Or.inr ⟨s.id, ht, h⟩)
  · exact absurd hsymm hns
  · rw [hs] at hS
    rw [← some.inj hS] at h
    exact Or.inl h

theorem Related.inverse {s : OntologyRelationType} (hsem : s.semantics = t.semantics)
    (hns : s.semantics.symmetric ≠ true) (hs : s.inverse = some t.id) (ht : t.inverse = some s.id)
    (h : Related axioms s a b) : Related axioms t b a := by
  rcases h with ⟨hr, hab⟩ | h | ⟨htr, h⟩
  · exact Or.inl ⟨hsem ▸ hr, hab.symm⟩
  · exact Or.inr (Or.inl (h.inverse hns hs ht))
  · refine Or.inr (Or.inr ⟨hsem ▸ htr, ?_⟩)
    exact TransGen.mono (fun x y hxy => Linked.inverse hns hs ht hxy) _ _ (transGen_swap.mpr h)

/-- **What is generated from the stored axioms** is what the links and the
declared semantics say. -/
theorem generated_iff_related (hp : Paired types) (ht : types R = some t) :
    Generated types (· ∈ axioms) R a b ↔ Related axioms t a b := by
  refine ⟨fun h => ?_, fun h => h.generated ht (hp.ids ht)⟩
  -- by induction on the generation, for whatever type the relation has
  induction h generalizing t with
  | ofAxiom hax =>
    refine Or.inr (Or.inl (Or.inl ?_))
    rwa [hp.ids ht]
  | refl a ht' hr =>
    rw [some.inj (ht.symm.trans ht')]
    exact Or.inl ⟨hr, rfl⟩
  | symm ht' hs _ ih =>
    have heq := some.inj (ht.symm.trans ht')
    subst heq
    exact (ih ht).symm hs (hp.symmetric ht hs)
  | trans ht' htr _ _ ih1 ih2 =>
    have heq := some.inj (ht.symm.trans ht')
    subst heq
    exact (ih1 ht).trans htr (ih2 ht)
  | inverse ht' hi _ ih =>
    have heq := some.inj (ht.symm.trans ht')
    subst heq
    obtain ⟨s, hS, hsinv, hsem⟩ := hp.inverse ht hi
    have hns : s.semantics.symmetric ≠ true := fun hsymm => by
      have hnone := hp.symmetric hS hsymm
      rw [hsinv] at hnone
      cases hnone
    rw [← hp.ids ht] at hsinv
    rw [← hp.ids hS] at hi
    exact (ih hS).inverse hsem hns hsinv hi

end Generated

/-! ### The standard relations -/

/-- The standard relation types. -/
def standardTypes : TypeTable := fun R => new.relationTypes[R]?

theorem paired_standard : Paired standardTypes where
  ids ht := (mem_standardRelationTypes ht).2
  symmetric {R t} ht hs := by
    have hall : ∀ t ∈ standardRelationTypes, t.semantics.symmetric = true → t.inverse = none := by
      decide +kernel
    exact hall t (mem_standardRelationTypes ht).1 hs
  inverse {R S t} ht hi := by
    have hall : ∀ t ∈ standardRelationTypes, ∀ S ∈ t.inverse,
        ∃ s ∈ standardRelationTypes, standardTypes S = some s ∧ s.inverse = some t.id ∧
          s.semantics = t.semantics := by decide +kernel
    obtain ⟨hmem, hid⟩ := mem_standardRelationTypes ht
    obtain ⟨s, -, hS, hinv, hsem⟩ := hall t hmem S hi
    exact ⟨s, hS, hid ▸ hinv, hsem⟩

variable {o o' : Ontology} {t : OntologyRelationType} {R : RelationTypeId} {a b : ConceptId}

/-- A standard transitive type is reflexive or has no cycles. -/
theorem loop_of_standard (ht : o.relationTypes[R]? = some t) (hmem : t ∈ standardRelationTypes)
    (hno : NoCycles o) (hr : Related o.axioms t a b) :
    a = b → t.semantics.reflexive = true ∨ Linked o.axioms t a b := by
  rintro rfl
  have hall : ∀ t ∈ standardRelationTypes, t.semantics.transitive = true →
      t.semantics.reflexive = true ∨
        (t.semantics.acyclic = true ∧ t.semantics.symmetric = false) := by decide +kernel
  rcases hr with ⟨hrefl, -⟩ | hlink | ⟨htrans, hloop⟩
  · exact Or.inl hrefl
  · exact Or.inr hlink
  · rcases hall t hmem htrans with hrefl | ⟨hacyclic, hsymm⟩
    · exact Or.inl hrefl
    · have hedges : ∀ x y, Linked o.axioms t x y → AssertedEdge o.axioms t x y := by
        rintro x y (h | ⟨hs, -⟩ | h)
        · exact Or.inl h
        · rw [hsymm] at hs
          cases hs
        · exact Or.inr h
      exact absurd hloop ((hno R t ht hacyclic).mono hedges a)

/-- Over the standard relations the answer is exact. -/
theorem isRelated_iff_related (htypes : o.relationTypes = new.relationTypes) (hno : NoCycles o)
    (h : Registered o a R b t) : o.isRelated a R b = .ok true ↔ Related o.axioms t a b := by
  have ht := h.relation
  rw [htypes] at ht
  have hmem := (mem_standardRelationTypes ht).1
  exact ⟨isRelated_sound h, fun hr =>
    isRelated_complete h hr (loop_of_standard h.relation hmem hno hr)⟩

/-! ### Runs -/

/-- The calls of a run with what each returned. -/
abbrev VocabularyTrace : Type := List (VocabularyOp × Except OntologyError OntologyWrite)

/-- The axiom of a call that returned `Inserted` or `Unchanged`. -/
def acceptedAxiom : VocabularyOp × Except OntologyError OntologyWrite → Option OntologyAxiom
  | (.addAxiom ax, .ok _) => some ax
  | _ => none

/-- The axioms accepted over a run. -/
def accepted (trace : VocabularyTrace) : List OntologyAxiom := trace.filterMap acceptedAxiom

/-- The stored axioms were accepted, and they imply all that was. -/
structure Kept (past : VocabularyTrace) (o : Ontology) : Prop where
  checked : CheckedRun o
  types : o.relationTypes = new.relationTypes
  stored : ∀ ax ∈ o.axioms, ax ∈ accepted past
  implied : ∀ ax ∈ accepted past,
    Generated standardTypes (· ∈ o.axioms) ax.relation ax.subject ax.object

theorem kept_new : Kept [] new where
  checked := CheckedRun.new
  types := rfl
  stored ax hax := by simp [new] at hax
  implied ax hax := by simp [accepted] at hax

theorem accepted_snoc (past : VocabularyTrace)
    (call : VocabularyOp × Except OntologyError OntologyWrite) :
    accepted (past ++ [call]) = accepted past ++ (acceptedAxiom call).toList := by
  rw [accepted, filterMap_append]
  cases h : acceptedAxiom call <;> simp [accepted, h]

/-- One more call. -/
theorem Kept.step {past : VocabularyTrace} {op : VocabularyOp}
    {r : Except OntologyError OntologyWrite} (h : Kept past o)
    (hrep : reply op.exec o = some (r, o')) : Kept (past ++ [(op, r)]) o' := by
  obtain ⟨hchec, htypes⟩ := vocabulary_step ⟨h.checked, h.types⟩ hrep
  have hsame : o'.axioms = o.axioms → acceptedAxiom (op, r) = none →
      Kept (past ++ [(op, r)]) o' := fun hax hnone => by
    have hacc : accepted (past ++ [(op, r)]) = accepted past := by
      rw [accepted_snoc, hnone, toList_none, append_nil]
    exact ⟨hchec, htypes, by rw [hacc, hax]; exact h.stored, by rw [hacc, hax]; exact h.implied⟩
  cases op with
  | addConcept concept =>
    obtain ⟨hok, herr, -⟩ := wp_iff_reply.mp (addConcept_spec (o := o) concept)
    refine hsame ?_ rfl
    cases r with
    | ok write => rcases hok _ _ hrep with rfl | rfl <;> rfl
    | error e => rw [herr _ _ hrep]
  | addAxiom ax =>
    obtain ⟨hok, herr, -⟩ := wp_iff_reply.mp (addAxiom_spec (o := o) ax)
    cases r with
    | error e =>
      have ho := herr _ _ hrep
      exact hsame (by rw [ho]) rfl
    | ok write =>
      have hacc : accepted (past ++ [(.addAxiom ax, .ok write)]) = accepted past ++ [ax] :=
        accepted_snoc past _
      obtain ⟨s, hadm, hcase⟩ := hok _ _ hrep
      rcases hcase with ⟨rfl, hyes⟩ | rfl
      · -- the axiom was implied already
        have hs := hadm.registered.relation
        rw [h.types] at hs
        have hgen := (generated_iff_related paired_standard hs).mpr
          (isRelated_sound hadm.registered hyes)
        refine ⟨hchec, htypes, fun x hx => ?_, fun x hx => ?_⟩
        · rw [hacc]
          exact mem_append_left _ (h.stored x hx)
        · rw [hacc] at hx
          rcases mem_append.mp hx with hx | hx
          · exact h.implied x hx
          · rw [mem_singleton.mp hx]
            exact hgen
      · refine ⟨hchec, htypes, fun x hx => ?_, fun x hx => ?_⟩
        · rw [hacc]
          rcases (mem_insert_iff ax x).mp hx with rfl | hx
          · exact mem_append_right _ mem_cons_self
          · exact mem_append_left _ (h.stored x hx)
        · rw [hacc] at hx
          rcases mem_append.mp hx with hx | hx
          · exact (h.implied x hx).mono fun y hy => (mem_insert_iff ax y).mpr (Or.inr hy)
          · rw [mem_singleton.mp hx]
            exact Generated.ofAxiom ((mem_insert_iff ax ax).mpr (Or.inl rfl))

theorem kept_of_run {ops : List VocabularyOp} {trace : VocabularyTrace}
    (hrun : run VocabularyOp.exec new ops = some (trace, o)) : Kept trace o := by
  have h := run_history (J := Kept) (fun h hr => h.step hr) [] kept_new hrun
  rwa [nil_append] at h

/-- What is generated from the accepted axioms is generated from the stored. -/
theorem Kept.generated_iff {trace : VocabularyTrace} (h : Kept trace o) :
    Generated standardTypes (· ∈ accepted trace) R a b ↔
      Generated standardTypes (· ∈ o.axioms) R a b :=
  ⟨fun hg => hg.bind h.implied, fun hg => hg.mono h.stored⟩

theorem Kept.isRelated {trace : VocabularyTrace} (h : Kept trace o)
    (ha : ∃ concept, o.concepts[a]? = some concept) (hb : ∃ concept, o.concepts[b]? = some concept)
    (ht : standardTypes R = some t) : ∃ v, o.isRelated a R b = .ok v ∧
      (v = true ↔ Generated standardTypes (· ∈ accepted trace) R a b) := by
  have hreg : Registered o a R b t := ⟨ha, hb, by rw [h.types]; exact ht⟩
  obtain ⟨v, hv⟩ := isRelated_total hreg
  refine ⟨v, hv, ?_⟩
  rw [h.generated_iff, generated_iff_related paired_standard ht,
    ← isRelated_iff_related h.types (h.checked.invariant.2) hreg, hv]
  simp

/-- Two answers that mean the same are the same. -/
theorem answer_eq {x y : Except OntologyError Bool} {P Q : Prop}
    (hx : ∃ v, x = .ok v ∧ (v = true ↔ P)) (hy : ∃ v, y = .ok v ∧ (v = true ↔ Q)) (h : P ↔ Q) :
    x = y := by
  obtain ⟨v, rfl, hv⟩ := hx
  obtain ⟨w, rfl, hw⟩ := hy
  rw [Bool.eq_iff_iff.mpr (hv.trans (h.trans hw.symm))]

/-- **`is_related` answers for what was accepted.** After any concepts and
axioms over the standard relations, the answer between registered concepts is
yes exactly if they are in the relation generated from the axioms accepted so
far; a relation and its inverse answer alike; and another run that accepted
the same axioms answers the same. -/
theorem isRelated_iff_generated {ops : List VocabularyOp} {trace : VocabularyTrace}
    (hrun : run VocabularyOp.exec new ops = some (trace, o))
    (ha : ∃ concept, o.concepts[a]? = some concept)
    (hb : ∃ concept, o.concepts[b]? = some concept) (ht : standardTypes R = some t) :
    (∃ v, o.isRelated a R b = .ok v ∧
      (v = true ↔ Generated standardTypes (· ∈ accepted trace) R a b)) ∧
    (∀ S, t.inverse = some S → o.isRelated a R b = o.isRelated b S a) ∧
    ∀ (ops' : List VocabularyOp) (trace' : VocabularyTrace) (o' : Ontology),
      run VocabularyOp.exec new ops' = some (trace', o') →
      (∃ concept, o'.concepts[a]? = some concept) → (∃ concept, o'.concepts[b]? = some concept) →
      (∀ ax, ax ∈ accepted trace' ↔ ax ∈ accepted trace) →
      o'.isRelated a R b = o.isRelated a R b := by
  have h := kept_of_run hrun
  have hanswer := h.isRelated ha hb ht
  refine ⟨hanswer, fun S hS => ?_, fun ops' trace' o' hrun' ha' hb' hsame => ?_⟩
  · obtain ⟨s, hs, hsinv, -⟩ := paired_standard.inverse ht hS
    refine answer_eq hanswer (h.isRelated hb ha hs) ⟨fun hg => ?_, fun hg => ?_⟩
    · exact Generated.inverse hs hsinv hg
    · exact Generated.inverse ht hS hg
  · have h' := kept_of_run hrun'
    refine answer_eq (h'.isRelated ha' hb' ht) hanswer ⟨fun hg => ?_, fun hg => ?_⟩
    · exact hg.mono fun ax hax => (hsame ax).mp hax
    · exact hg.mono fun ax hax => (hsame ax).mpr hax

/-- `a` is a `b`, `b` is a `c`, and the axiom both imply, which is not stored. -/
def hierarchy : List VocabularyOp :=
  [.addConcept conceptA, .addConcept conceptB, .addConcept conceptC,
   .addAxiom ⟨conceptA.id, isA, conceptB.id⟩,
   .addAxiom ⟨conceptB.id, isA, conceptC.id⟩,
   .addAxiom ⟨conceptA.id, isA, conceptC.id⟩]

theorem isRelated_iff_generated_hierarchy : ∃ trace o,
    run VocabularyOp.exec new hierarchy = some (trace, o) ∧
    (accepted trace).length = 3 ∧ o.axioms.size = 2 ∧
    ∃ v, o.isRelated conceptA.id isA conceptC.id = .ok v ∧
      (v = true ↔ Generated standardTypes (· ∈ accepted trace) isA conceptA.id conceptC.id) := by
  have hvalue : ((run VocabularyOp.exec new hierarchy).map fun q =>
      ((accepted q.1).length, q.2.axioms.size, q.2.concepts[conceptA.id]?,
        q.2.concepts[conceptC.id]?)) = some (3, 2, some conceptA, some conceptC) := by
    decide +kernel
  obtain ⟨⟨trace, o⟩, hrun, hfacts⟩ := Option.map_eq_some_iff.mp hvalue
  simp only [Prod.mk.injEq] at hfacts
  obtain ⟨hlength, hsize, ha, hc⟩ := hfacts
  have ht : ∃ t, standardTypes isA = some t := Option.isSome_iff_exists.mp (by decide +kernel)
  obtain ⟨t, ht⟩ := ht
  have h := isRelated_iff_generated hrun ⟨conceptA, ha⟩ ⟨conceptC, hc⟩ ht
  exact ⟨trace, o, hrun, hlength, hsize, h.1⟩

/-- **`add_axiom` decides by what was accepted.** After any concepts and axioms
over the standard relations, an axiom between registered concepts is refused
exactly if its relation is acyclic and it closes a cycle with the axioms
accepted so far, left out exactly if they imply it, and stored otherwise. -/
theorem addAxiom_verdict {ops : List VocabularyOp} {trace : VocabularyTrace} {ax : OntologyAxiom}
    (hrun : run VocabularyOp.exec new ops = some (trace, o))
    (ha : ∃ concept, o.concepts[ax.subject]? = some concept)
    (hb : ∃ concept, o.concepts[ax.object]? = some concept)
    (ht : standardTypes ax.relation = some t) :
    let holds := Generated standardTypes (· ∈ accepted trace) ax.relation
    let cyclic := t.semantics.acyclic = true ∧ (ax.subject = ax.object ∨ holds ax.object ax.subject)
    wp (addAxiom ax)
      (fun write u => ¬cyclic ∧ ((holds ax.subject ax.object ∧ write = .unchanged ∧ u = o) ∨
        (¬holds ax.subject ax.object ∧ write = .inserted ∧
          u = { o with axioms := o.axioms.insert ax })))
      (fun e u => cyclic ∧ e = .cycleDetected ax.relation ax.subject ax.object ∧ u = o) False o := by
  have h := kept_of_run hrun
  obtain ⟨back, hback, hbackward⟩ := h.isRelated hb ha ht
  obtain ⟨forth, hforth, hforward⟩ := h.isRelated ha hb ht
  obtain ⟨subject, hsubject⟩ := ha
  obtain ⟨object, hobject⟩ := hb
  have hrel : o.relationTypes[ax.relation]? = some t := by rw [h.types]; exact ht
  have hcloses : closesCycle o t ax =
      .ok (t.semantics.acyclic && (decide (ax.subject = ax.object) || back)) := by
    unfold closesCycle
    cases t.semantics.acyclic <;> by_cases heq : ax.subject = ax.object <;> simp [heq, hback] <;> rfl
  have hnew (hno : ¬forth = true) : ¬o.axioms.contains ax = true :=
    fun hmem => hno (hforward.mpr (.ofAxiom (h.stored ax hmem)))
  dsimp only
  rw [← hbackward, ← hforward]
  simp only [addAxiom, wp_bind, wp_get, wp_lift, ensureConcept, ensureRelationType, hsubject,
    hobject, hrel, okOr, Checked.wp_ok, hcloses, wp_ite, hforth, Bool.and_eq_true,
    Bool.or_eq_true, decide_eq_true_eq]
  refine ⟨fun hc => ⟨hc, rfl, rfl⟩, fun hc => ⟨fun hf => ⟨hc, .inl ⟨hf, rfl, rfl⟩⟩, fun hf => ?_⟩⟩
  exact ⟨hc, .inr ⟨hf, if_neg (hnew hf), rfl⟩⟩

theorem addAxiom_verdict_hierarchy : ∃ trace o t,
    run VocabularyOp.exec new hierarchy = some (trace, o) ∧ standardTypes isA = some t ∧
    wp (addAxiom ⟨conceptC.id, isA, conceptA.id⟩)
      (fun _ _ => ¬(t.semantics.acyclic = true ∧ (conceptC.id = conceptA.id ∨
        Generated standardTypes (· ∈ accepted trace) isA conceptA.id conceptC.id)))
      (fun _ u => u = o) False o := by
  have hvalue : ((run VocabularyOp.exec new hierarchy).map fun q =>
      (q.2.concepts[conceptC.id]?, q.2.concepts[conceptA.id]?)) =
        some (some conceptC, some conceptA) := by decide +kernel
  obtain ⟨⟨trace, o⟩, hrun, hfacts⟩ := map_eq_some_iff.mp hvalue
  obtain ⟨hc, ha⟩ := Prod.mk.inj hfacts
  obtain ⟨t, ht⟩ := isSome_iff_exists.mp (show (standardTypes isA).isSome by decide +kernel)
  exact ⟨trace, o, t, hrun, ht, wp_mono (addAxiom_verdict hrun ⟨_, hc⟩ ⟨_, ha⟩ ht)
    (fun _ _ h => h.1) (fun _ _ h => h.2.2) id⟩

end Termivar.Ontology
