/-
# Acyclic relation types

`add_axiom` rejects an axiom of an acyclic relation type whose object is
already related to its subject. That keeps the asserted edges of the type
(its axioms and the reversed axioms of its inverse) free of cycles only where
the check sees every walk over them: `WalksChecked` says when it does. It does
not for an acyclic type that is not transitive, for the axioms of an inverse
that is not declared so on both sides, and for axioms that a new type turns
into edges.
-/
import Termivar.Ontology.Relations

namespace Termivar.Ontology

open Relation GraphSearch Command Option

variable {o o' : Ontology} {t : OntologyRelationType}

/-- An edge of the type: one of its axioms, or a reversed one of its inverse. -/
def AssertedEdge (axioms : BTreeSet OntologyAxiom) (t : OntologyRelationType) (a b : ConceptId) :
    Prop :=
  ⟨a, t.id, b⟩ ∈ axioms ∨ ∃ inverse, t.inverse = some inverse ∧ ⟨b, inverse, a⟩ ∈ axioms

/-- No acyclic relation type has a directed cycle in its asserted edges. -/
def NoCycles (o : Ontology) : Prop :=
  ∀ (R : RelationTypeId) (t : OntologyRelationType), o.relationTypes[R]? = some t →
    t.semantics.acyclic = true → Acyclic (AssertedEdge o.axioms t)

/-- Types are stored under their ids, and axioms have their type registered. -/
structure WellFormed (o : Ontology) : Prop where
  ids : ∀ {R : RelationTypeId} {t : OntologyRelationType}, o.relationTypes[R]? = some t → t.id = R
  types : ∀ {ax : OntologyAxiom}, ax ∈ o.axioms →
    ∃ t : OntologyRelationType, o.relationTypes[ax.relation]? = some t

theorem AssertedEdge.linked {axioms : BTreeSet OntologyAxiom} {a b : ConceptId}
    (h : AssertedEdge axioms t a b) : Linked axioms t a b := by
  rcases h with h | h
  · exact Or.inl h
  · exact Or.inr (Or.inr h)

/-! ### What the writes do -/

theorem addConcept_spec (concept : OntologyConcept) :
    wp (addConcept concept)
      (fun _ u => u = o ∨ u = { o with concepts := o.concepts.insert concept.id concept })
      (fun _ u => u = o) False o := by
  unfold addConcept
  rw [wp_bind, wp_get]
  cases o.concepts[concept.id]? with
  | none => exact Or.inr rfl
  | some existing =>
    rw [wp_ite]
    exact ⟨fun _ => Or.inl rfl, fun _ => rfl⟩

theorem addRelationType_spec (relationType : OntologyRelationType) :
    wp (addRelationType relationType)
      (fun _ u => u = o ∨ (o.relationTypes[relationType.id]? = none ∧
        u = { o with relationTypes := o.relationTypes.insert relationType.id relationType }))
      (fun _ u => u = o) False o := by
  unfold addRelationType
  rw [wp_bind, wp_get]
  cases htype : o.relationTypes[relationType.id]? with
  | none => exact Or.inr ⟨rfl, rfl⟩
  | some existing =>
    rw [wp_ite]
    exact ⟨fun _ => Or.inl rfl, fun _ => rfl⟩

/-- The axiom passed the checks of `add_axiom`. -/
structure Admissible (o : Ontology) (ax : OntologyAxiom) (t : OntologyRelationType) : Prop where
  registered : Registered o ax.subject ax.relation ax.object t
  distinct : t.semantics.acyclic = true → ax.subject ≠ ax.object
  noWalkBack : t.semantics.acyclic = true → ¬ o.isRelated ax.object ax.relation ax.subject = .ok true

variable {ax : OntologyAxiom}

theorem closesCycle_eq (h : Registered o ax.subject ax.relation ax.object t) :
    ∃ closes, closesCycle o t ax = .ok closes ∧ (closes = false → Admissible o ax t) := by
  unfold closesCycle
  by_cases hacyclic : t.semantics.acyclic = true
  · by_cases heq : ax.subject = ax.object
    · rw [if_pos hacyclic, if_pos heq]
      exact ⟨true, rfl, nofun⟩
    · rw [if_pos hacyclic, if_neg heq]
      obtain ⟨back, hback⟩ := isRelated_total h.swap
      refine ⟨back, hback, fun hfalse => ⟨h, fun _ => heq, fun _ hyes => ?_⟩⟩
      rw [hback, hfalse] at hyes
      cases hyes
  · rw [if_neg hacyclic]
    exact ⟨false, rfl, fun _ => ⟨h, fun ha => absurd ha hacyclic, fun ha => absurd ha hacyclic⟩⟩

theorem addAxiom_spec (ax : OntologyAxiom) :
    wp (addAxiom ax) (fun _ u => ∃ t, Admissible o ax t ∧
        ((u = o ∧ o.isRelated ax.subject ax.relation ax.object = .ok true) ∨
          u = { o with axioms := o.axioms.insert ax }))
      (fun _ u => u = o) False o := by
  simp only [addAxiom, wp_bind, wp_get, wp_lift, ensureConcept,
    ensureRelationType, Checked.wp_okOr, implies_true, and_true]
  intro subject hsubj object hobj t ht
  have hreg : Registered o ax.subject ax.relation ax.object t :=
    ⟨⟨subject, hsubj⟩, ⟨object, hobj⟩, ht⟩
  obtain ⟨closes, hcloses, hadm⟩ := closesCycle_eq hreg
  obtain ⟨v, hv⟩ := isRelated_total hreg
  rw [hcloses, Checked.wp_ok, wp_ite]
  refine ⟨fun _ => rfl, fun hno => ?_⟩
  rw [Bool.not_eq_true] at hno
  rw [wp_bind, wp_lift, hv, Checked.wp_ok, wp_ite]
  refine ⟨fun hyes => ⟨t, hadm hno, Or.inl ⟨rfl, ?_⟩⟩, fun _ => ⟨t, hadm hno, Or.inr rfl⟩⟩
  rw [hyes]

/-! ### When the check sees every walk -/

/-- The walks over the edges of every acyclic type that the operation adds an
edge to are seen by a check of `add_axiom`. -/
def WalksChecked (o : Ontology) : OntologyOp → Prop
  | .addConcept _ => True
  | .addRelationType new => new.semantics.acyclic = true → ∀ inverse, new.inverse = some inverse →
      (∀ ax ∈ o.axioms, ax.relation ≠ inverse) ∨
        ∃ s : OntologyRelationType, o.relationTypes[inverse]? = some s ∧ s.semantics.acyclic = true
  | .addAxiom ax => ∀ (s : OntologyRelationType), Registered o ax.subject ax.relation ax.object s →
      (s.semantics.acyclic = true →
        s.semantics.transitive = true ∧ s.inverse ≠ some ax.relation) ∧
      ∀ (R : RelationTypeId) (t : OntologyRelationType), o.relationTypes[R]? = some t →
        t.semantics.acyclic = true → t.inverse = some ax.relation →
        s.semantics.acyclic = true ∧ s.semantics.transitive = true ∧ s.inverse = some R

/-- The edges of a type after an axiom was added. -/
theorem AssertedEdge.of_insert {a b : ConceptId} (h : AssertedEdge (o.axioms.insert ax) t a b) :
    AssertedEdge o.axioms t a b ∨ (t.id = ax.relation ∧ a = ax.subject ∧ b = ax.object) ∨
      (t.inverse = some ax.relation ∧ b = ax.subject ∧ a = ax.object) := by
  rcases h with hab | ⟨inverse, hinverse, hab⟩ <;>
    rcases (mem_insert_iff ax _).mp hab with heq | hab
  · subst heq
    exact .inr (.inl ⟨rfl, rfl, rfl⟩)
  · exact .inl (.inl hab)
  · subst heq
    exact .inr (.inr ⟨hinverse, rfl, rfl⟩)
  · exact .inl (.inr ⟨inverse, hinverse, hab⟩)

/-- The check of a transitive type sees every walk over its links. -/
theorem Admissible.no_walk {s : OntologyRelationType} (hadm : Admissible o ax s)
    (hacyclic : s.semantics.acyclic = true) (htrans : s.semantics.transitive = true) :
    ¬ ReflTransGen (Linked o.axioms s) ax.object ax.subject := fun hwalk => by
  have hne := hadm.distinct hacyclic
  rcases reflTransGen_iff_eq_or_transGen.mp hwalk with heq | hlinks
  · exact hne heq
  · refine hadm.noWalkBack hacyclic ?_
    exact (isRelated_iff_of_ne hadm.registered.swap (Ne.symm hne)).mpr
      (Or.inr (Or.inr ⟨htrans, hlinks⟩))

/-- An axiom of the type itself. -/
theorem acyclic_insert_own (h : Acyclic (AssertedEdge o.axioms t))
    (hadm : Admissible o ax t) (hacyclic : t.semantics.acyclic = true)
    (htrans : t.semantics.transitive = true) (hinv : t.inverse ≠ some ax.relation) :
    Acyclic (AssertedEdge (o.axioms.insert ax) t) := by
  refine h.insert (fun hwalk => hadm.no_walk hacyclic htrans
    (ReflTransGen.mono (fun _ _ hab => hab.linked) _ _ hwalk)) fun a b hab => ?_
  rcases hab.of_insert with hab | ⟨-, rfl, rfl⟩ | ⟨hinverse, -⟩
  · exact .inl hab
  · exact .inr ⟨rfl, rfl⟩
  · exact absurd hinverse hinv

/-- An axiom of the inverse, whose links are the reversed edges of the type. -/
theorem acyclic_insert_inverse {s : OntologyRelationType}
    (h : Acyclic (AssertedEdge o.axioms t)) (hadm : Admissible o ax s) (hs : s.id = ax.relation)
    (hacyclic : s.semantics.acyclic = true) (htrans : s.semantics.transitive = true)
    (hinv : s.inverse = some t.id) (hback : t.inverse = some ax.relation)
    (hne : t.id ≠ ax.relation) : Acyclic (AssertedEdge (o.axioms.insert ax) t) := by
  have hrev : ∀ a b, AssertedEdge o.axioms t a b → Linked o.axioms s b a := by
    rintro a b (hab | ⟨inverse, hinverse, hab⟩)
    · exact Or.inr (Or.inr ⟨t.id, hinv, hab⟩)
    · rw [hback] at hinverse
      rw [← some.inj hinverse, ← hs] at hab
      exact Or.inl hab
  refine h.insert (fun hwalk => hadm.no_walk hacyclic htrans
    (reflTransGen_swap.mp (ReflTransGen.mono hrev _ _ hwalk))) fun a b hab => ?_
  rcases hab.of_insert with hab | ⟨hid, -⟩ | ⟨-, rfl, rfl⟩
  · exact .inl hab
  · exact absurd hid hne
  · exact .inr ⟨rfl, rfl⟩

/-- An axiom of another relation adds no edge. -/
theorem acyclic_insert_other (h : Acyclic (AssertedEdge o.axioms t))
    (hid : t.id ≠ ax.relation) (hinv : t.inverse ≠ some ax.relation) :
    Acyclic (AssertedEdge (o.axioms.insert ax) t) := by
  refine h.mono fun a b hab => ?_
  rcases hab.of_insert with hab | ⟨hsame, -⟩ | ⟨hinverse, -⟩
  · exact hab
  · exact absurd hsame hid
  · exact absurd hinverse hinv

/-! ### One operation -/

theorem WellFormed.addConcept (h : WellFormed o) (concepts : BTreeMap ConceptId OntologyConcept) :
    WellFormed { o with concepts := concepts } := ⟨h.ids, h.types⟩

theorem WellFormed.addRelationType (h : WellFormed o) (new : OntologyRelationType) :
    WellFormed { o with relationTypes := o.relationTypes.insert new.id new } where
  ids {R t} ht := by
    have ht' : (o.relationTypes.insert new.id new)[R]? = some t := ht
    rw [get_insert] at ht'
    split_ifs at ht' with hid
    · rw [← some.inj ht', hid]
    · exact h.ids ht'
  types {ax} hax := by
    obtain ⟨t, ht⟩ := h.types hax
    show ∃ t : OntologyRelationType, (o.relationTypes.insert new.id new)[ax.relation]? = some t
    rw [get_insert]
    by_cases hid : new.id = ax.relation
    · exact ⟨new, if_pos hid⟩
    · exact ⟨t, by rw [if_neg hid, ht]⟩

theorem WellFormed.addAxiom (h : WellFormed o) (ht : o.relationTypes[ax.relation]? = some t) :
    WellFormed { o with axioms := o.axioms.insert ax } where
  ids := h.ids
  types {ax'} hax := by
    rcases (mem_insert_iff ax ax').mp hax with rfl | hax
    · exact ⟨t, ht⟩
    · exact h.types hax

theorem wellFormed_new : WellFormed new where
  ids {R t} ht := by
    have hall : ∀ p ∈ new.relationTypes.toList, p.2.id = p.1 := by decide +kernel
    exact hall (R, t) (mem_toList.mpr ht)
  types hax := by simp [new] at hax

theorem noCycles_new : NoCycles new := by
  intro R t _ _ a hloop
  have hnone : ∀ x y, ¬ AssertedEdge new.axioms t x y := by
    rintro x y (h | ⟨inverse, -, h⟩) <;> simp [new] at h
  obtain ⟨b, hab, -⟩ := TransGen.head'_iff.mp hloop
  exact hnone a b hab

/-- A new type has no axioms of its own: its edges are the reversed axioms of
its inverse, all of them edges of an acyclic type or none at all. -/
theorem NoCycles.addRelationType (h : NoCycles o) (hwf : WellFormed o) {new : OntologyRelationType}
    (hfsh : o.relationTypes[new.id]? = none)
    (hchk : WalksChecked o (.addRelationType new)) :
    NoCycles { o with relationTypes := o.relationTypes.insert new.id new } := by
  intro R t ht hacyclic
  have ht' : (o.relationTypes.insert new.id new)[R]? = some t := ht
  rw [get_insert] at ht'
  split_ifs at ht' with hid
  · have hnew := some.inj ht'
    subst hnew
    have hown : ∀ a b, ¬ (⟨a, new.id, b⟩ : OntologyAxiom) ∈ o.axioms := fun a b hax => by
      obtain ⟨s, hs⟩ := hwf.types hax
      rw [hfsh] at hs
      cases hs
    intro a hloop
    cases hinv : new.inverse with
    | none =>
      obtain ⟨b, hab, -⟩ := TransGen.head'_iff.mp hloop
      rcases hab with hab | ⟨inverse, hinverse, -⟩
      · exact hown a b hab
      · rw [hinv] at hinverse
        cases hinverse
    | some inverse =>
      rcases hchk hacyclic inverse hinv with hnone | ⟨s, hs, hsacy⟩
      · obtain ⟨b, hab, -⟩ := TransGen.head'_iff.mp hloop
        rcases hab with hab | ⟨inverse', hinverse, hab⟩
        · exact hown a b hab
        · rw [hinv] at hinverse
          rw [← some.inj hinverse] at hab
          exact hnone _ hab rfl
      · have hback : ∀ x y, AssertedEdge o.axioms new x y →
            Function.swap (AssertedEdge o.axioms s) x y := by
          rintro x y (hxy | ⟨inverse', hinverse, hxy⟩)
          · exact absurd hxy (hown x y)
          · rw [hinv] at hinverse
            rw [← some.inj hinverse, ← hwf.ids hs] at hxy
            exact Or.inl hxy
        exact (h inverse s hs hsacy).swap.mono hback a hloop
  · exact h R t ht' hacyclic

theorem NoCycles.addAxiom (h : NoCycles o) (hwf : WellFormed o) {s : OntologyRelationType}
    (hadm : Admissible o ax s)
    (hchk : WalksChecked o (.addAxiom ax)) :
    NoCycles { o with axioms := o.axioms.insert ax } := by
  intro R t ht hacyclic
  have hold := h R t ht hacyclic
  have htid := hwf.ids ht
  have hsid := hwf.ids hadm.registered.relation
  obtain ⟨hown, hinverse⟩ := hchk s hadm.registered
  by_cases hR : R = ax.relation
  · subst hR
    have hts : t = s := some.inj (ht.symm.trans hadm.registered.relation)
    subst hts
    obtain ⟨htrans, hne⟩ := hown hacyclic
    exact acyclic_insert_own hold hadm hacyclic htrans hne
  · by_cases hback : t.inverse = some ax.relation
    · obtain ⟨hsacy, hstrans, hsinv⟩ := hinverse R t ht hacyclic hback
      rw [← htid] at hsinv hR
      exact acyclic_insert_inverse hold hadm hsid hsacy hstrans hsinv hback hR
    · rw [← htid] at hR
      exact acyclic_insert_other hold hR hback

/-- **One operation** whose walks are checked closes no cycle. -/
theorem step_noCycles {op : OntologyOp} (hwf : WellFormed o) (h : NoCycles o)
    (hchk : WalksChecked o op) :
    wp op.exec (fun _ u => WellFormed u ∧ NoCycles u) (fun _ u => u = o) False o := by
  cases op with
  | addConcept concept =>
    refine wp_mono (addConcept_spec concept) (fun _ u hu => ?_) (fun _ _ hu => hu) id
    rcases hu with rfl | rfl
    · exact ⟨hwf, h⟩
    · exact ⟨hwf.addConcept _, h⟩
  | addRelationType new =>
    refine wp_mono (addRelationType_spec new) (fun _ u hu => ?_) (fun _ _ hu => hu) id
    rcases hu with rfl | ⟨hfsh, rfl⟩
    · exact ⟨hwf, h⟩
    · exact ⟨hwf.addRelationType new, h.addRelationType hwf hfsh hchk⟩
  | addAxiom ax =>
    refine wp_mono (addAxiom_spec ax) (fun _ u hu => ?_) (fun _ _ hu => hu) id
    obtain ⟨s, hadm, ⟨rfl, -⟩ | rfl⟩ := hu
    · exact ⟨hwf, h⟩
    · exact ⟨hwf.addAxiom hadm.registered.relation, h.addAxiom hwf hadm hchk⟩

/-! ### The standard relations -/

theorem mem_standardRelationTypes {R : RelationTypeId} (h : new.relationTypes[R]? = some t) :
    t ∈ standardRelationTypes ∧ t.id = R := by
  have hall : ∀ p ∈ new.relationTypes.toList, p.2 ∈ standardRelationTypes ∧ p.2.id = p.1 := by
    decide +kernel
  exact hall (R, t) (mem_toList.mpr h)

/-- The axioms of the standard relations have their walks checked. -/
theorem walksChecked_standard (htypes : o.relationTypes = new.relationTypes) (ax : OntologyAxiom) :
    WalksChecked o (.addAxiom ax) := by
  have hacyclic : ∀ t ∈ standardRelationTypes, t.semantics.acyclic = true →
      t.semantics.transitive = true ∧ t.inverse ≠ some t.id := by decide +kernel
  have hprs : ∀ t ∈ standardRelationTypes, ∀ s ∈ standardRelationTypes,
      t.semantics.acyclic = true → t.inverse = some s.id →
      s.semantics.acyclic = true ∧ s.semantics.transitive = true ∧ s.inverse = some t.id := by
    decide +kernel
  intro s hreg
  have hs := hreg.relation
  rw [htypes] at hs
  obtain ⟨hsmem, hsid⟩ := mem_standardRelationTypes hs
  refine ⟨fun ha => hsid ▸ hacyclic s hsmem ha, fun R t ht ha hinv => ?_⟩
  rw [htypes] at ht
  obtain ⟨htmem, htid⟩ := mem_standardRelationTypes ht
  rw [← hsid] at hinv
  exact htid ▸ hprs t htmem s hsmem ha hinv

/-! ### Runs -/

/-- The states of the runs whose operations all have their walks checked. -/
inductive CheckedRun : Ontology → Prop
  | new : CheckedRun .new
  | step {o o' : Ontology} {op : OntologyOp} {r : Except OntologyError OntologyWrite} :
      CheckedRun o → WalksChecked o op → reply op.exec o = some (r, o') → CheckedRun o'

theorem CheckedRun.invariant (h : CheckedRun o) : WellFormed o ∧ NoCycles o := by
  induction h with
  | new => exact ⟨wellFormed_new, noCycles_new⟩
  | @step o o' op r _ hchk hrep ih =>
    obtain ⟨hok, herr, -⟩ := wp_iff_reply.mp (step_noCycles ih.1 ih.2 hchk)
    cases r with
    | ok write => exact hok _ _ hrep
    | error e =>
      rw [herr _ _ hrep]
      exact ih

theorem vocabulary_relationTypes (op : VocabularyOp) :
    wp op.exec (fun _ u => u.relationTypes = o.relationTypes)
      (fun _ u => u.relationTypes = o.relationTypes) False o := by
  cases op with
  | addConcept concept =>
    refine wp_mono (addConcept_spec concept) (fun _ u hu => ?_) (fun _ u hu => ?_) id
    · rcases hu with rfl | rfl <;> rfl
    · rw [hu]
  | addAxiom ax =>
    refine wp_mono (addAxiom_spec ax) (fun _ u hu => ?_) (fun _ u hu => ?_) id
    · obtain ⟨-, -, ⟨rfl, -⟩ | rfl⟩ := hu <;> rfl
    · rw [hu]

/-- A vocabulary over the standard relations is built by checked operations. -/
theorem vocabulary_step {op : VocabularyOp} {r : Except OntologyError OntologyWrite}
    (h : CheckedRun o ∧ o.relationTypes = new.relationTypes)
    (hrep : reply op.exec o = some (r, o')) :
    CheckedRun o' ∧ o'.relationTypes = new.relationTypes := by
  obtain ⟨hrun, htypes⟩ := h
  have hchk : WalksChecked o op.op := by
    cases op with
    | addConcept concept => trivial
    | addAxiom ax => exact walksChecked_standard htypes ax
  obtain ⟨hok, herr, -⟩ := wp_iff_reply.mp (vocabulary_relationTypes (o := o) op)
  refine ⟨CheckedRun.step hrun hchk hrep, ?_⟩
  cases r with
  | ok write => exact (hok _ _ hrep).trans htypes
  | error e => exact (herr _ _ hrep).trans htypes

theorem checkedRun_of_vocabulary {ops : List VocabularyOp}
    {trace : List (VocabularyOp × Except OntologyError OntologyWrite)}
    (hrun : run VocabularyOp.exec new ops = some (trace, o)) :
    CheckedRun o ∧ o.relationTypes = new.relationTypes :=
  run_preserves (I := fun u => CheckedRun u ∧ u.relationTypes = new.relationTypes)
    (fun h hrep => vocabulary_step h hrep) ⟨CheckedRun.new, rfl⟩ hrun

/-- **No cycles where the check sees every walk.** -/
theorem noCycles_of_walksChecked (h : CheckedRun o) : NoCycles o := h.invariant.2

/-- A concept labelled with its id. -/
def conceptNamed (name : String) (h : isBlank name = false) : OntologyConcept := ⟨⟨name, h⟩, name, h⟩

def conceptA : OntologyConcept := conceptNamed "a" (by decide)
def conceptB : OntologyConcept := conceptNamed "b" (by decide)
def conceptC : OntologyConcept := conceptNamed "c" (by decide)

theorem noCycles_of_walksChecked_isA : ∃ o, CheckedRun o ∧
    o.axioms.contains ⟨conceptA.id, isA, conceptB.id⟩ = true ∧ NoCycles o := by
  have hvalue : ((run VocabularyOp.exec new [.addConcept conceptA, .addConcept conceptB,
      .addAxiom ⟨conceptA.id, isA, conceptB.id⟩]).map fun q =>
        q.2.axioms.contains ⟨conceptA.id, isA, conceptB.id⟩) = some true := by decide +kernel
  obtain ⟨⟨trace, o⟩, hrun, hax⟩ := Option.map_eq_some_iff.mp hvalue
  have hchec := (checkedRun_of_vocabulary hrun).1
  exact ⟨o, hchec, hax, noCycles_of_walksChecked hchec⟩


/-! ### Where the check misses a walk -/

/-- An acyclic relation type that is not transitive. -/
def precedes : OntologyRelationType where
  id := ⟨"precedes", by decide⟩
  label := "precedes"
  labelNotBlank := by decide
  semantics := { acyclic := true }

/-- `a` before `b` before `c` before `a`. -/
def roundTrip : List OntologyOp :=
  [.addConcept conceptA, .addConcept conceptB, .addConcept conceptC,
   .addRelationType precedes,
   .addAxiom ⟨conceptA.id, precedes.id, conceptB.id⟩,
   .addAxiom ⟨conceptB.id, precedes.id, conceptC.id⟩,
   .addAxiom ⟨conceptC.id, precedes.id, conceptA.id⟩]

/-- **A cycle of three steps is accepted** by a type that is acyclic and not
transitive: the check looks one step back. -/
theorem three_step_cycle : ¬ ∀ (ops : List OntologyOp)
    (trace : List (OntologyOp × Except OntologyError OntologyWrite)) (o : Ontology),
    run OntologyOp.exec new ops = some (trace, o) → NoCycles o := by
  intro h
  have hvalue : ((run OntologyOp.exec new roundTrip).map fun q =>
      (q.2.relationTypes[precedes.id]?,
        q.2.axioms.contains ⟨conceptA.id, precedes.id, conceptB.id⟩,
        q.2.axioms.contains ⟨conceptB.id, precedes.id, conceptC.id⟩,
        q.2.axioms.contains ⟨conceptC.id, precedes.id, conceptA.id⟩)) =
      some (some precedes, true, true, true) := by decide +kernel
  obtain ⟨⟨trace, o⟩, hrun, hfacts⟩ := Option.map_eq_some_iff.mp hvalue
  simp only [Prod.mk.injEq] at hfacts
  obtain ⟨htype, hab, hbc, hca⟩ := hfacts
  have hloop : TransGen (AssertedEdge o.axioms precedes) conceptA.id conceptA.id :=
    TransGen.tail (TransGen.tail (TransGen.single (Or.inl hab)) (Or.inl hbc)) (Or.inl hca)
  exact h roundTrip trace o hrun precedes.id precedes htype rfl conceptA.id hloop

end Termivar.Ontology
