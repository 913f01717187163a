/-
# What a condition's trace is evidence of

The meaning of a condition, given the truth of its leaves, and the evidence
its trace lists. A node that did not match lists none; what a node lists stands
under a record that made one of its leaves true, and the way to that leaf goes
through matched groups only. Without negation and on evidence alone, a
condition stays matched when a record that its root does not list is taken out
of the snapshot.
-/
import Termivar.Knowledge.Indexing
import Termivar.Rules.Expression

namespace Termivar

open List Checked

variable {snapshot : KnowledgeSnapshot} {e : Expression} {t : ExpressionTrace}

/-! ### Meaning -/

namespace Expression

/-- Whether a record is what a leaf asks for. -/
def Selects : Expression → LayerRecord → Prop
  | .claim _ predicate value, r => r.predicate = predicate ∧ ∀ expected ∈ value, r.value = expected
  | .textContains _ predicate needle ci, r =>
    r.predicate = predicate ∧ ∃ text ∈ evidenceValueTexts r.value, Termivar.textContains text needle ci
  | .textListContainsExact _ predicate value, r =>
    r.predicate = predicate ∧ ∃ values, r.value = .textList values ∧ value ∈ values
  | _, _ => False

/-- A record of the snapshot that makes a leaf true. -/
def Witness (snapshot : KnowledgeSnapshot) (leaf : Expression) (r : LayerRecord) : Prop :=
  ∃ layer, leaf.layer = some layer ∧ r ∈ snapshot.records layer ∧ leaf.Selects r

/-- The truth of a leaf. -/
def LeafHolds (snapshot : KnowledgeSnapshot) : Expression → Prop
  | .ontologyRelation subject relation object =>
    snapshot.ontology.isRelated subject relation object = .ok true
  | leaf => ∃ r, leaf.Witness snapshot r

mutual

/-- The truth of a condition, given that of its leaves. -/
def Holds (truth : Expression → Prop) : Expression → Prop
  | .all es => HoldEach truth es
  | .any es => HoldSome truth es
  | .negate e => ¬ Holds truth e
  | .claim layer predicate value => truth (.claim layer predicate value)
  | .textContains layer predicate needle ci => truth (.textContains layer predicate needle ci)
  | .textListContainsExact layer predicate value =>
    truth (.textListContainsExact layer predicate value)
  | .ontologyRelation subject relation object => truth (.ontologyRelation subject relation object)

def HoldEach (truth : Expression → Prop) : List Expression → Prop
  | [] => True
  | e :: es => Holds truth e ∧ HoldEach truth es

def HoldSome (truth : Expression → Prop) : List Expression → Prop
  | [] => False
  | e :: es => Holds truth e ∨ HoldSome truth es

end

variable {truth : Expression → Prop}

theorem holdEach_iff : ∀ {es : List Expression}, HoldEach truth es ↔ ∀ e ∈ es, e.Holds truth
  | [] => by simp [HoldEach]
  | e :: es => by simp [HoldEach, holdEach_iff]

theorem holdSome_iff : ∀ {es : List Expression}, HoldSome truth es ↔ ∃ e ∈ es, e.Holds truth
  | [] => by simp [HoldSome]
  | e :: es => by simp [HoldSome, holdSome_iff]

end Expression

/-! ### Evaluation of the operands and of the leaves -/

theorem evaluateChildren_eq_mapM : ∀ es : List Expression,
    evaluateChildren snapshot es = es.mapM (evaluateNode snapshot)
  | [] => rfl
  | e :: es => by rw [evaluateChildren, evaluateChildren_eq_mapM es, mapM_cons]

variable {es : List Expression} {id : EvidenceId}

/-- The operands are evaluated each on its own, in order. -/
theorem evaluateChildren_eq_ok {ts : List ExpressionTrace} :
    evaluateChildren snapshot es = .ok ts ↔
      List.Forall₂ (fun e t => evaluateNode snapshot e = .ok t) es ts := by
  rw [evaluateChildren_eq_mapM, mapM_eq_ok_iff]

theorem evaluateNode_all :
    evaluateNode snapshot (.all es) = .ok t ↔ ∃ ts,
      List.Forall₂ (fun e t => evaluateNode snapshot e = .ok t) es ts ∧
      t = { label := .all, matched := ts.all ExpressionTrace.matched
            evidenceIds := if ts.all ExpressionTrace.matched then collectTraceEvidence ts else ∅
            children := ts } := by
  simp only [evaluateNode, bind_eq_ok, evaluateChildren_eq_ok, pure, Except.pure,
    Except.ok.injEq, eq_comm (a := t)]

theorem evaluateNode_any :
    evaluateNode snapshot (.any es) = .ok t ↔ ∃ ts,
      List.Forall₂ (fun e t => evaluateNode snapshot e = .ok t) es ts ∧
      t = { label := .any, matched := ts.any ExpressionTrace.matched
            evidenceIds := collectTraceEvidence (ts.filter ExpressionTrace.matched)
            children := ts } := by
  simp only [evaluateNode, bind_eq_ok, evaluateChildren_eq_ok, pure, Except.pure,
    Except.ok.injEq, eq_comm (a := t)]

theorem evaluateNode_negate {e : Expression} :
    evaluateNode snapshot (.negate e) = .ok t ↔ ∃ child, evaluateNode snapshot e = .ok child ∧
      t = { label := .not, matched := !child.matched, evidenceIds := ∅, children := [child] } := by
  simp only [evaluateNode, bind_eq_ok, pure, Except.pure, Except.ok.injEq, eq_comm (a := t)]

theorem evaluateNode_ontologyRelation {subject object : ConceptId} {relation : RelationTypeId} :
    evaluateNode snapshot (.ontologyRelation subject relation object) = .ok t ↔ ∃ matched,
      snapshot.ontology.isRelated subject relation object = .ok matched ∧
      t = { label := .ontology subject relation object, matched, evidenceIds := ∅
            children := [] } := by
  simp only [evaluateNode, bind_eq_ok, pure, Except.pure, Except.ok.injEq, eq_comm (a := t)]
  cases snapshot.ontology.isRelated subject relation object <;> simp [Except.mapError]

theorem mem_collectTraceEvidence {ts : List ExpressionTrace} :
    id ∈ collectTraceEvidence ts ↔ ∃ t ∈ ts, id ∈ t.evidenceIds := by
  simp [collectTraceEvidence]

/-- What a query of a layer answers. -/
theorem evaluateLayer_spec (snapshot : KnowledgeSnapshot) (label : TraceLabel)
    (layer : KnowledgeLayer) (predicate : KnowledgePredicate) (test : EvidenceValue → Bool)
    (P : LayerRecord → Prop)
    (hP : ∀ r, P r ↔ r.predicate = predicate ∧ test r.value = true) :
    ((evaluateLayer label layer predicate test snapshot).matched = true ↔
      ∃ r ∈ snapshot.records layer, P r) ∧
    ∀ id, id ∈ (evaluateLayer label layer predicate test snapshot).evidenceIds ↔
      ∃ r ∈ snapshot.records layer, P r ∧ id ∈ r.evidenceIds := by
  unfold evaluateLayer
  refine ⟨?_, fun id => ?_⟩
  · simp [hP, filter_eq_nil_iff]
  · simp [hP, and_assoc]

/-- What a leaf that queries records answers. -/
theorem evaluateNode_record (snapshot : KnowledgeSnapshot) {layer : KnowledgeLayer}
    (hlay : e.layer = some layer) :
    ∃ t, evaluateNode snapshot e = .ok t ∧ t.children = [] ∧
      (t.matched = true ↔ ∃ r, e.Witness snapshot r) ∧
      ∀ id, id ∈ t.evidenceIds ↔ ∃ r, e.Witness snapshot r ∧ id ∈ r.evidenceIds := by
  have hspec : ∀ label predicate test,
      (∀ r, e.Selects r ↔ r.predicate = predicate ∧ test r.value = true) →
      evaluateNode snapshot e = .ok (evaluateLayer label layer predicate test snapshot) →
      ∃ t, evaluateNode snapshot e = .ok t ∧ t.children = [] ∧
        (t.matched = true ↔ ∃ r, e.Witness snapshot r) ∧
        ∀ id, id ∈ t.evidenceIds ↔ ∃ r, e.Witness snapshot r ∧ id ∈ r.evidenceIds := by
    intro label predicate test htest heval
    obtain ⟨hmat, hids⟩ := evaluateLayer_spec snapshot label layer predicate test e.Selects htest
    refine ⟨_, heval, rfl, ?_, fun id => ?_⟩
    · simp [hmat, Expression.Witness, hlay]
    · simp [hids, Expression.Witness, hlay, and_assoc]
  cases e with
  | all es => cases hlay
  | any es => cases hlay
  | negate e => cases hlay
  | ontologyRelation subject relation object => cases hlay
  | claim layer' predicate value =>
    cases hlay
    refine hspec _ predicate _ (fun r => ?_) rfl
    cases value <;> simp [Expression.Selects]
  | textContains layer' predicate needle ci =>
    cases hlay
    refine hspec _ predicate _ (fun r => ?_) rfl
    simp [Expression.Selects]
  | textListContainsExact layer' predicate value =>
    cases hlay
    refine hspec _ predicate _ (fun r => ?_) rfl
    cases hvalue : r.value <;> simp [Expression.Selects, hvalue, textListContainsExact]

/-- The children of a trace are the traces of the operands. -/
theorem forall₂_operands (h : evaluateNode snapshot e = .ok t) :
    List.Forall₂ (fun e t => evaluateNode snapshot e = .ok t) e.operands t.children := by
  have hrec : ∀ {layer}, e.layer = some layer → e.operands = [] →
      List.Forall₂ (fun e t => evaluateNode snapshot e = .ok t) e.operands t.children := by
    intro layer hlay hnil
    obtain ⟨t', ht', hchs, -⟩ := evaluateNode_record snapshot hlay
    cases h.symm.trans ht'
    rw [hnil, hchs]
    exact .nil
  cases e with
  | all es =>
    obtain ⟨ts, hts, rfl⟩ := evaluateNode_all.mp h
    exact hts
  | any es =>
    obtain ⟨ts, hts, rfl⟩ := evaluateNode_any.mp h
    exact hts
  | negate e =>
    obtain ⟨child, hch, rfl⟩ := evaluateNode_negate.mp h
    exact .cons hch .nil
  | ontologyRelation subject relation object =>
    obtain ⟨matched, -, rfl⟩ := evaluateNode_ontologyRelation.mp h
    exact .nil
  | claim layer predicate value => exact hrec rfl rfl
  | textContains layer predicate needle ci => exact hrec rfl rfl
  | textListContainsExact layer predicate value => exact hrec rfl rfl

/-! ### Truth -/

section Lists

variable {α β : Type} {R : α → β → Prop} {xs : List α} {ys : List β}

theorem forall₂_mem_left (h : List.Forall₂ R xs ys) {x : α} (hx : x ∈ xs) : ∃ y ∈ ys, R x y := by
  induction h with
  | nil => cases hx
  | cons hR _ ih =>
    obtain rfl | hx := mem_cons.mp hx
    · exact ⟨_, mem_cons_self, hR⟩
    · obtain ⟨y, hy, hRy⟩ := ih hx
      exact ⟨y, mem_cons_of_mem _ hy, hRy⟩

theorem forall₂_mem_right (h : List.Forall₂ R xs ys) {y : β} (hy : y ∈ ys) : ∃ x ∈ xs, R x y :=
  forall₂_mem_left (R := flip R) (List.Forall₂.flip h) hy

theorem forall₂_getElem? (h : List.Forall₂ R xs ys) {i : Nat} {y : β} (hy : ys[i]? = some y) :
    ∃ x, xs[i]? = some x ∧ R x y := by
  induction h generalizing i with
  | nil => simp at hy
  | cons hR _ ih =>
    cases i with
    | zero =>
      cases hy
      exact ⟨_, rfl, hR⟩
    | succ i => exact ih hy

end Lists

/-- A node matched if and only if its condition is true. -/
theorem matched_iff_holds (h : evaluateNode snapshot e = .ok t) :
    t.matched = true ↔ e.Holds (Expression.LeafHolds snapshot) := by
  have hrec : ∀ {leaf layer t}, leaf.layer = some layer → evaluateNode snapshot leaf = .ok t →
      (t.matched = true ↔ ∃ r, leaf.Witness snapshot r) := by
    intro leaf layer t hlay h
    obtain ⟨t', ht', -, hmat, -⟩ := evaluateNode_record snapshot hlay
    cases h.symm.trans ht'
    exact hmat
  induction e using Expression.inductionOn generalizing t with
  | all es ih =>
    obtain ⟨ts, hts, rfl⟩ := evaluateNode_all.mp h
    simp only [Expression.Holds, Expression.holdEach_iff, all_eq_true]
    constructor
    · intro hall e he
      obtain ⟨child, hch, heval⟩ := forall₂_mem_left hts he
      exact (ih e he heval).mp (hall child hch)
    · intro hall child hch
      obtain ⟨e, he, heval⟩ := forall₂_mem_right hts hch
      exact (ih e he heval).mpr (hall e he)
  | any es ih =>
    obtain ⟨ts, hts, rfl⟩ := evaluateNode_any.mp h
    simp only [Expression.Holds, Expression.holdSome_iff, any_eq_true]
    constructor
    · rintro ⟨child, hch, hmat⟩
      obtain ⟨e, he, heval⟩ := forall₂_mem_right hts hch
      exact ⟨e, he, (ih e he heval).mp hmat⟩
    · rintro ⟨e, he, hhold⟩
      obtain ⟨child, hch, heval⟩ := forall₂_mem_left hts he
      exact ⟨child, hch, (ih e he heval).mpr hhold⟩
  | negate e ih =>
    obtain ⟨child, hch, rfl⟩ := evaluateNode_negate.mp h
    simp only [Expression.Holds, ← ih hch, Bool.not_eq_true', Bool.not_eq_true]
  | claim layer predicate value => exact hrec rfl h
  | textContains layer predicate needle ci => exact hrec rfl h
  | textListContainsExact layer predicate value => exact hrec rfl h
  | ontologyRelation subject relation object =>
    obtain ⟨matched, hrel, rfl⟩ := evaluateNode_ontologyRelation.mp h
    simp [Expression.Holds, Expression.LeafHolds, hrel]

/-! ### Attribution -/

/-- The node at a path of child positions. -/
def ExpressionTrace.node (t : ExpressionTrace) : List Nat → Option ExpressionTrace
  | [] => some t
  | i :: path => t.children[i]?.bind fun child => child.node path

/-- The operand at a path of positions. -/
def Expression.node (e : Expression) : List Nat → Option Expression
  | [] => some e
  | i :: path => e.operands[i]?.bind fun operand => operand.node path

/-- The condition evaluates and matches. -/
def Expression.Matches (snapshot : KnowledgeSnapshot) (e : Expression) : Prop :=
  ∃ t, evaluateNode snapshot e = .ok t ∧ t.matched = true

/-- A matching leaf reached from a condition through matched nodes, none of
them a negation. -/
inductive Expression.Reaches (snapshot : KnowledgeSnapshot) : Expression → Expression → Prop
  | leaf {leaf : Expression} : leaf.operands = [] → leaf.Matches snapshot →
      Reaches snapshot leaf leaf
  | all {es : List Expression} {e leaf : Expression} : (Expression.all es).Matches snapshot →
      e ∈ es → Reaches snapshot e leaf → Reaches snapshot (.all es) leaf
  | any {es : List Expression} {e leaf : Expression} : (Expression.any es).Matches snapshot →
      e ∈ es → Reaches snapshot e leaf → Reaches snapshot (.any es) leaf

/-- Every node of a trace is the trace of the operand at its path. -/
theorem node_evaluated {t' : ExpressionTrace} {path : List Nat}
    (h : evaluateNode snapshot e = .ok t) (hnode : t.node path = some t') :
    ∃ e', e.node path = some e' ∧ evaluateNode snapshot e' = .ok t' := by
  induction path generalizing e t with
  | nil =>
    cases hnode
    exact ⟨e, rfl, h⟩
  | cons i path ih =>
    obtain ⟨child, hch, hnode⟩ := Option.bind_eq_some_iff.mp hnode
    obtain ⟨operand, hoper, heval⟩ := forall₂_getElem? (forall₂_operands h) hch
    obtain ⟨e', he', heval'⟩ := ih heval hnode
    exact ⟨e', Option.bind_eq_some_iff.mpr ⟨operand, hoper, he'⟩, heval'⟩

/-- What a node lists stands under a record that made one of its leaves true. -/
theorem exists_reaches_of_mem (h : evaluateNode snapshot e = .ok t) (hid : id ∈ t.evidenceIds) :
    t.matched = true ∧
      ∃ leaf r, e.Reaches snapshot leaf ∧ leaf.Witness snapshot r ∧ id ∈ r.evidenceIds := by
  have hrec : ∀ {leaf layer t}, leaf.layer = some layer → leaf.operands = [] →
      evaluateNode snapshot leaf = .ok t → id ∈ t.evidenceIds → t.matched = true ∧
        ∃ leaf' r, leaf.Reaches snapshot leaf' ∧ leaf'.Witness snapshot r ∧ id ∈ r.evidenceIds := by
    intro leaf layer t hlay hnil h hid
    obtain ⟨t', ht', -, hmat, hids⟩ := evaluateNode_record snapshot hlay
    cases h.symm.trans ht'
    obtain ⟨r, hr, hrid⟩ := (hids id).mp hid
    have ht : t.matched = true := hmat.mpr ⟨r, hr⟩
    exact ⟨ht, leaf, r, .leaf hnil ⟨t, h, ht⟩, hr, hrid⟩
  induction e using Expression.inductionOn generalizing t with
  | all es ih =>
    have heval := h
    obtain ⟨ts, hts, rfl⟩ := evaluateNode_all.mp h
    by_cases hall : ts.all ExpressionTrace.matched = true
    · simp only [hall, if_true] at hid
      obtain ⟨child, hch, hid⟩ := mem_collectTraceEvidence.mp hid
      obtain ⟨e, he, hchildEval⟩ := forall₂_mem_right hts hch
      obtain ⟨-, leaf, r, hrch, hr, hrid⟩ := ih e he hchildEval hid
      exact ⟨hall, leaf, r, .all ⟨_, heval, hall⟩ he hrch, hr, hrid⟩
    · simp [hall] at hid
  | any es ih =>
    have heval := h
    obtain ⟨ts, hts, rfl⟩ := evaluateNode_any.mp h
    obtain ⟨child, hch, hid⟩ := mem_collectTraceEvidence.mp hid
    obtain ⟨hch, hmat⟩ := mem_filter.mp hch
    obtain ⟨e, he, hchildEval⟩ := forall₂_mem_right hts hch
    obtain ⟨-, leaf, r, hrch, hr, hrid⟩ := ih e he hchildEval hid
    have hany : ts.any ExpressionTrace.matched = true := any_eq_true.mpr ⟨child, hch, hmat⟩
    exact ⟨hany, leaf, r, .any ⟨_, heval, hany⟩ he hrch, hr, hrid⟩
  | negate e ih =>
    obtain ⟨child, hch, rfl⟩ := evaluateNode_negate.mp h
    simp at hid
  | claim layer predicate value => exact hrec rfl rfl h hid
  | textContains layer predicate needle ci => exact hrec rfl rfl h hid
  | textListContainsExact layer predicate value => exact hrec rfl rfl h hid
  | ontologyRelation subject relation object =>
    obtain ⟨matched, -, rfl⟩ := evaluateNode_ontologyRelation.mp h
    simp at hid

theorem Expression.Reaches.every {test : Expression → Bool} {leaf : Expression}
    (hrch : e.Reaches snapshot leaf) (hevery : e.every test = true) : leaf.every test = true := by
  induction hrch with
  | leaf _ _ => exact hevery
  | all _ hmem _ ih => exact ih ((Expression.every_all.mp hevery).2 _ hmem)
  | any _ hmem _ ih => exact ih ((Expression.every_any.mp hevery).2 _ hmem)

/-- A condition on evidence lists evidence of its snapshot. -/
theorem exists_evidence_of_mem (honly : e.usesOnlyEvidence = true)
    (h : evaluateNode snapshot e = .ok t) (hid : id ∈ t.evidenceIds) :
    ∃ evidence ∈ snapshot.evidence, evidence.id = id := by
  obtain ⟨-, leaf, r, hrch, ⟨layer, hlay, hmem, -⟩, hr⟩ := exists_reaches_of_mem h hid
  have hleaf : leaf.usesOnlyEvidence = true := hrch.every honly
  have heq : layer = .evidence := by
    cases leaf <;>
      simp_all [Expression.layer, Expression.usesOnlyEvidence, Expression.every,
        Expression.isOntologyRelation]
  subst heq
  obtain ⟨evidence, hev, rfl⟩ := mem_map.mp hmem
  exact ⟨evidence, hev, (mem_singleton.mp hr).symm⟩

/-! ### Taking records out -/

theorem exists_traces (h : ∀ e ∈ es, ∃ t, evaluateNode snapshot e = .ok t) :
    ∃ ts, List.Forall₂ (fun e t => evaluateNode snapshot e = .ok t) es ts := by
  induction es with
  | nil => exact ⟨[], .nil⟩
  | cons e es ih =>
    obtain ⟨⟨t, ht⟩, hes⟩ := forall_mem_cons.mp h
    obtain ⟨ts, hts⟩ := ih hes
    exact ⟨t :: ts, .cons ht hts⟩

/-- Only a query of the ontology can fail. -/
theorem evaluates_of_usesOnlyEvidence (snapshot : KnowledgeSnapshot) (h : e.usesOnlyEvidence = true) :
    ∃ t, evaluateNode snapshot e = .ok t := by
  have hrec : ∀ {leaf : Expression} {layer}, leaf.layer = some layer →
      ∃ t, evaluateNode snapshot leaf = .ok t := fun hlay =>
    (evaluateNode_record snapshot hlay).imp fun _ ht => ht.1
  induction e using Expression.inductionOn with
  | all es ih =>
    have hes := (Expression.every_all.mp h).2
    obtain ⟨ts, hts⟩ := exists_traces fun e he => ih e he (hes e he)
    exact ⟨_, evaluateNode_all.mpr ⟨ts, hts, rfl⟩⟩
  | any es ih =>
    have hes := (Expression.every_any.mp h).2
    obtain ⟨ts, hts⟩ := exists_traces fun e he => ih e he (hes e he)
    exact ⟨_, evaluateNode_any.mpr ⟨ts, hts, rfl⟩⟩
  | negate e ih =>
    obtain ⟨t, ht⟩ := ih (Expression.every_negate.mp h).2
    exact ⟨_, evaluateNode_negate.mpr ⟨t, ht, rfl⟩⟩
  | claim layer predicate value => exact hrec rfl
  | textContains layer predicate needle ci => exact hrec rfl
  | textListContainsExact layer predicate value => exact hrec rfl
  | ontologyRelation subject relation object => cases h

/-- A condition on evidence, without negation, that matched still matches on
any snapshot that keeps the evidence its root lists. -/
theorem matches_of_kept {kept : List Evidence} (hfree : e.negationFree = true)
    (honly : e.usesOnlyEvidence = true) (h : evaluateNode snapshot e = .ok t)
    (hmat : t.matched = true)
    (hkept : ∀ r ∈ snapshot.evidence, r.id ∈ t.evidenceIds → r ∈ kept) :
    e.Matches { snapshot with evidence := kept } := by
  have hrec : ∀ {leaf : Expression} {t}, leaf.layer = some .evidence →
      evaluateNode snapshot leaf = .ok t → t.matched = true →
      (∀ r ∈ snapshot.evidence, r.id ∈ t.evidenceIds → r ∈ kept) →
      leaf.Matches { snapshot with evidence := kept } := by
    intro leaf t hlay h hmat hkept
    obtain ⟨t', ht', -, hiff, hids⟩ := evaluateNode_record snapshot hlay
    cases h.symm.trans ht'
    obtain ⟨r, hr⟩ := hiff.mp hmat
    have hwitn := hr
    obtain ⟨layer, hlay', hmem, hsel⟩ := hr
    cases hlay.symm.trans hlay'
    obtain ⟨record, hrec, rfl⟩ := mem_map.mp hmem
    have hlisted : record.id ∈ t.evidenceIds :=
      (hids record.id).mpr ⟨_, hwitn, mem_singleton.mpr rfl⟩
    obtain ⟨t₂, ht₂, -, hiff₂, -⟩ :=
      evaluateNode_record { snapshot with evidence := kept } hlay
    refine ⟨t₂, ht₂, hiff₂.mpr ⟨record.layerRecord, .evidence, hlay, ?_, hsel⟩⟩
    exact mem_map.mpr ⟨record, hkept record hrec hlisted, rfl⟩
  induction e using Expression.inductionOn generalizing t with
  | all es ih =>
    obtain ⟨ts, hts, rfl⟩ := evaluateNode_all.mp h
    have hfrees := (Expression.every_all.mp hfree).2
    have honlys := (Expression.every_all.mp honly).2
    have hmats : ∀ e ∈ es, e.Matches { snapshot with evidence := kept } := by
      intro e he
      obtain ⟨child, hch, heval⟩ := forall₂_mem_left hts he
      refine ih e he (hfrees e he) (honlys e he) heval (all_eq_true.mp hmat child hch)
        fun r hr hid => hkept r hr ?_
      rw [if_pos hmat]
      exact mem_collectTraceEvidence.mpr ⟨child, hch, hid⟩
    obtain ⟨ts', hts'⟩ := exists_traces fun e he => (hmats e he).imp fun _ ht => ht.1
    refine ⟨_, evaluateNode_all.mpr ⟨ts', hts', rfl⟩, all_eq_true.mpr fun child hch => ?_⟩
    obtain ⟨e, he, heval⟩ := forall₂_mem_right hts' hch
    obtain ⟨t', ht', hmat'⟩ := hmats e he
    cases heval.symm.trans ht'
    exact hmat'
  | any es ih =>
    obtain ⟨ts, hts, rfl⟩ := evaluateNode_any.mp h
    have hfrees := (Expression.every_any.mp hfree).2
    have honlys := (Expression.every_any.mp honly).2
    obtain ⟨child, hch, hchil⟩ := any_eq_true.mp hmat
    obtain ⟨e, he, heval⟩ := forall₂_mem_right hts hch
    obtain ⟨t', ht', hmat'⟩ := ih e he (hfrees e he) (honlys e he) heval hchil
      fun r hr hid => hkept r hr
        (mem_collectTraceEvidence.mpr ⟨child, mem_filter.mpr ⟨hch, hchil⟩, hid⟩)
    -- The operands that did not match are evaluated again; on evidence that cannot fail.
    obtain ⟨ts', hts'⟩ := exists_traces fun e he =>
      evaluates_of_usesOnlyEvidence { snapshot with evidence := kept } (honlys e he)
    obtain ⟨child', hch', heval'⟩ := forall₂_mem_left hts' he
    cases heval'.symm.trans ht'
    exact ⟨_, evaluateNode_any.mpr ⟨ts', hts', rfl⟩, any_eq_true.mpr ⟨t', hch', hmat'⟩⟩
  | negate e ih => cases (Expression.every_negate.mp hfree).1
  | claim layer predicate value =>
    exact hrec (congrArg some (of_decide_eq_true honly)) h hmat hkept
  | textContains layer predicate needle ci =>
    exact hrec (congrArg some (of_decide_eq_true honly)) h hmat hkept
  | textListContainsExact layer predicate value =>
    exact hrec (congrArg some (of_decide_eq_true honly)) h hmat hkept
  | ontologyRelation subject relation object => cases honly

/-- **Provenance of a condition.** Where a condition evaluates: a node that did
not match lists no evidence; what a node lists stands under a record that made a
leaf true, and the way from the node to that leaf goes through matched nodes
only, never through a negation; the root matched if and only if the condition is
true of its leaves; and a matched condition on evidence, without negation, still
matches when a record that its root does not list is taken out. -/
theorem evaluateNode_provenance (h : evaluateNode snapshot e = .ok t) :
    (∀ path t', t.node path = some t' → t'.matched = false → t'.evidenceIds = ∅) ∧
    (∀ path t', t.node path = some t' → ∃ e', e.node path = some e' ∧
      ∀ id ∈ t'.evidenceIds, ∃ leaf r,
        e'.Reaches snapshot leaf ∧ leaf.Witness snapshot r ∧ id ∈ r.evidenceIds) ∧
    (t.matched = true ↔ e.Holds (Expression.LeafHolds snapshot)) ∧
    ∀ before record after, snapshot.evidence = before ++ record :: after →
      e.negationFree = true → e.usesOnlyEvidence = true → t.matched = true →
      record.id ∉ t.evidenceIds → e.Matches { snapshot with evidence := before ++ after } := by
  refine ⟨fun path t' hnode hunm => ?_, fun path t' hnode => ?_, matched_iff_holds h,
    fun before record after hspl hfree honly hmat hunl => ?_⟩
  · obtain ⟨e', -, heval⟩ := node_evaluated h hnode
    rw [Std.ExtTreeSet.eq_empty_iff_forall_not_mem]
    intro id hid
    rw [(exists_reaches_of_mem heval hid).1] at hunm
    cases hunm
  · obtain ⟨e', he', heval⟩ := node_evaluated h hnode
    exact ⟨e', he', fun id hid => (exists_reaches_of_mem heval hid).2⟩
  · refine matches_of_kept hfree honly h hmat fun r hr hid => ?_
    have hne : r ≠ record := by
      rintro rfl
      exact hunl hid
    rw [hspl] at hr
    simpa [hne] using hr

/-- A predicate about the framework of a target. -/
def frameworkPredicate : KnowledgePredicate :=
  ⟨"technology", "framework", by decide, by decide⟩

/-- An observation of a framework. -/
def frameworkEvidence (id : EvidenceId) (name : String) : Evidence where
  id := id
  subject := ⟨"app", by decide⟩
  kind := .technology
  predicate := frameworkPredicate
  value := .text name
  source := ⟨"fingerprint", "headers", none, by decide, by decide, .refl true⟩
  reliability := ⟨8000, by decide⟩
  observedAtMs := 0
  origin := .direct

/-- A snapshot with two observations. -/
def frameworkSnapshot : KnowledgeSnapshot where
  authority := ⟨0⟩
  subject := ⟨"app", by decide⟩
  subjectRevision := 2
  ontologyRevision := 0
  ontology := .new
  evidence := [frameworkEvidence ⟨"e1", by decide⟩ "Laravel",
    frameworkEvidence ⟨"e2", by decide⟩ "Symfony"]
  facts := []
  hypotheses := []

theorem evaluateNode_provenance_framework :
    (Expression.all [.equals .evidence frameworkPredicate (.text "Laravel")]).Matches
      { frameworkSnapshot with evidence := [frameworkEvidence ⟨"e1", by decide⟩ "Laravel"] } :=
  (@evaluateNode_provenance frameworkSnapshot _ _ rfl).2.2.2
    [_] (frameworkEvidence ⟨"e2", by decide⟩ "Symfony") [] rfl rfl rfl (by decide) (by decide)

/-! ### Over a run -/

open Command

/-- A condition without negation stays true where its leaves do. -/
theorem Expression.Holds.mono {truth truth' : Expression → Prop} {test : Expression → Bool}
    (htruth : ∀ leaf, test leaf = true → truth leaf → truth' leaf) (hfree : e.negationFree = true)
    (hevery : e.every test = true) (h : e.Holds truth) : e.Holds truth' := by
  induction e using Expression.inductionOn with
  | all es ih =>
    rw [Holds, holdEach_iff] at h ⊢
    exact fun e he => ih e he ((every_all.mp hfree).2 e he) ((every_all.mp hevery).2 e he) (h e he)
  | any es ih =>
    rw [Holds, holdSome_iff] at h ⊢
    obtain ⟨e, he, hholds⟩ := h
    exact ⟨e, he, ih e he ((every_any.mp hfree).2 e he) ((every_any.mp hevery).2 e he) hholds⟩
  | negate e ih => cases (every_negate.mp hfree).1
  | claim layer predicate value => exact htruth _ hevery h
  | textContains layer predicate needle ci => exact htruth _ hevery h
  | textListContainsExact layer predicate value => exact htruth _ hevery h
  | ontologyRelation subject relation object => exact htruth _ hevery h

/-- What a leaf asks for is a matter of the claim. -/
theorem Expression.Selects.congr {leaf : Expression} {r r' : LayerRecord} (h : leaf.Selects r)
    (hpredicate : r'.predicate = r.predicate) (hvalue : r'.value = r.value) : leaf.Selects r' := by
  cases leaf <;> simp_all [Selects]

/-- The records of a later snapshot make the claims of an earlier one. -/
theorem records_kept {s t : KnowledgeState} (hs : Indexed s) (ht : Indexed t) (hkept : KeepsIdentity s t)
    (authority : KnowledgeAuthority) (subject : EntityId) (layer : KnowledgeLayer) {r : LayerRecord}
    (hr : r ∈ (s.snapshotForSubject authority subject).records layer) :
    ∃ r' ∈ (t.snapshotForSubject authority subject).records layer,
      r'.predicate = r.predicate ∧ r'.value = r.value := by
  cases layer <;> obtain ⟨v, hv, rfl⟩ := mem_map.mp hr
  · obtain ⟨w, hw, rfl⟩ := hkept.evidence.collectIndexed hs.evidenceBySubject ht.evidenceBySubject
      (fun _ _ h => congrArg Evidence.subject h) hv
    exact ⟨_, mem_map_of_mem hw, rfl, rfl⟩
  · obtain ⟨w, hw, hclaim⟩ := hkept.facts.collectIndexed hs.factsBySubject ht.factsBySubject
      (fun _ _ h => congrArg Prod.fst h) hv
    exact ⟨_, mem_map_of_mem hw, congrArg (·.2.1) hclaim, congrArg (·.2.2) hclaim⟩
  · obtain ⟨w, hw, hclaim⟩ := hkept.hypotheses.collectIndexed hs.hypothesesBySubject
      ht.hypothesesBySubject (fun _ _ h => congrArg Prod.fst h) hv
    exact ⟨_, mem_map_of_mem hw, congrArg (·.2.1) hclaim, congrArg (·.2.2) hclaim⟩

/-- **What matched stays matched.** A condition without negation that reads
records only, matched for a subject once, matches in every snapshot of the
subject after any further calls, failing ones included. -/
theorem matched_of_run {authority : KnowledgeAuthority} {ops more : List KnowledgeOp} {trace trace'}
    {s u : KnowledgeState} {subject : EntityId} {later : ExpressionTrace}
    (hrun : run (KnowledgeOp.exec authority) .new ops = some (trace, s))
    (hmore : run (KnowledgeOp.exec authority) s more = some (trace', u))
    (hfree : e.negationFree = true) (hrecords : e.every (!·.isOntologyRelation) = true)
    (h : evaluateNode (s.snapshotForSubject authority subject) e = .ok t) (hmatched : t.matched = true)
    (hlater : evaluateNode (u.snapshotForSubject authority subject) e = .ok later) :
    later.matched = true := by
  have hs := indexed_of_run hrun
  have hsteps := steps_of_run hmore
  refine (matched_iff_holds hlater).mpr (((matched_iff_holds h).mp hmatched).mono ?_ hfree hrecords)
  have hwitness {leaf : Expression} (hw : ∃ r, leaf.Witness (s.snapshotForSubject authority subject) r) :
      ∃ r, leaf.Witness (u.snapshotForSubject authority subject) r := by
    obtain ⟨r, layer, hlayer, hr, hselects⟩ := hw
    obtain ⟨r', hr', hpredicate, hvalue⟩ := records_kept hs (hs.steps hsteps) (.steps hsteps) _ _ layer hr
    exact ⟨r', layer, hlayer, hr', hselects.congr hpredicate hvalue⟩
  rintro leaf htest htruth
  cases leaf with
  | ontologyRelation => cases htest
  | _ => exact hwitness htruth

theorem matched_of_run_framework : ∃ trace s trace' u, run (KnowledgeOp.exec ⟨0⟩) .new
      [.insertEvidence .sorted (frameworkEvidence ⟨"e1", by decide⟩ "Laravel")] = some (trace, s) ∧
    run (KnowledgeOp.exec ⟨0⟩) s
      [.insertEvidence .sorted (frameworkEvidence ⟨"e2", by decide⟩ "Symfony")] = some (trace', u) ∧
    (Expression.equals .evidence frameworkPredicate (.text "Laravel")).Matches
      (u.snapshotForSubject ⟨0⟩ ⟨"app", by decide⟩) := by
  have hvalue : ((run (KnowledgeOp.exec ⟨0⟩) .new
        [.insertEvidence .sorted (frameworkEvidence ⟨"e1", by decide⟩ "Laravel")]).bind fun q =>
      (run (KnowledgeOp.exec ⟨0⟩) q.2
        [.insertEvidence .sorted (frameworkEvidence ⟨"e2", by decide⟩ "Symfony")]).map fun _ =>
          (evaluateClaim .evidence frameworkPredicate (some (.text "Laravel"))
            (q.2.snapshotForSubject ⟨0⟩ ⟨"app", by decide⟩)).matched) = some true := by
    decide +kernel
  obtain ⟨⟨trace, s⟩, hrun, hvalue⟩ := Option.bind_eq_some_iff.mp hvalue
  obtain ⟨⟨trace', u⟩, hmore, hmatched⟩ := Option.map_eq_some_iff.mp hvalue
  exact ⟨trace, s, trace', u, hrun, hmore, _, rfl,
    matched_of_run (e := .claim .evidence frameworkPredicate (some (.text "Laravel"))) hrun hmore
      rfl rfl rfl hmatched rfl⟩

end Termivar
