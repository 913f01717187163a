/-
# The lineage of derived evidence

Derived evidence names the records it was computed from. `insert_evidence`
and `insert_evidence_batch` check that the parents are there, of the same
subject, and that no cycle runs through the batch, and they index the reverse
edges; `insert_evidence_with_relation` stores a derived record as it is. So
the lineage of the store is in order along a run if and only if no derived
record enters through a bundle.
-/
import Termivar.Knowledge.Indexing

namespace Termivar

open SecondaryIndex Relation Command List Option

/-- The record `a` was derived from the record `b`. -/
def ParentOf (evidence : BTreeMap EvidenceId Evidence) (a b : EvidenceId) : Prop :=
  ∃ record : Evidence, evidence[a]? = some record ∧ b ∈ record.parents

/-- The index of the children is the reverse of the stored parent edges. -/
def Reversed (s : KnowledgeState) : Prop := ∀ parent child : EvidenceId,
  child ∈ idsUnder s.derivationChildren parent ↔ ParentOf s.evidence child parent

/-- Every derived record has its parents stored, of its subject; no record is
derived from itself over any number of steps; and the index of the children
is the reverse of the stored parent edges. -/
structure Lineage (s : KnowledgeState) : Prop where
  parents : ∀ (id : EvidenceId) (record : Evidence), s.evidence[id]? = some record →
    ∀ parent ∈ record.parents, ∃ stored : Evidence, s.evidence[parent]? = some stored ∧
      stored.subject = record.subject
  acyclic : GraphSearch.Acyclic (ParentOf s.evidence)
  children : Reversed s

section Steps

variable {s t : KnowledgeState}

theorem lineage_new : Lineage .new where
  parents id record hget := by simp [KnowledgeState.new] at hget
  acyclic id hcycle := by
    obtain ⟨next, ⟨record, hget, -⟩, -⟩ := TransGen.head'_iff.mp hcycle
    simp [KnowledgeState.new] at hget
  children parent child := by simp [KnowledgeState.new, idsUnder, ParentOf]

/-- The lineage is a matter of the evidence and the reverse edges alone. -/
theorem Lineage.congr (h : Lineage s) (hev : t.evidence = s.evidence)
    (hchs : t.derivationChildren = s.derivationChildren) : Lineage t := by
  constructor
  · rw [hev]
    exact h.parents
  · rw [hev]
    exact h.acyclic
  · unfold Reversed
    rw [hev, hchs]
    exact h.children

/-- Writes of other records leave the evidence and the reverse edges alone. -/
theorem records_frame (hst : ReflTransGen RecordWrite s t) :
    t.evidence = s.evidence ∧ t.derivationChildren = s.derivationChildren := by
  induction hst with
  | refl => exact ⟨rfl, rfl⟩
  | tail _ hwr ih => cases hwr <;> exact ih

/-! ### The reverse edges -/

theorem mem_derivationEdges (children : BTreeMap EvidenceId (BTreeSet EvidenceId))
    (record : Evidence) (parent child : EvidenceId) :
    child ∈ idsUnder (derivationEdges children record) parent ↔
      (child = record.id ∧ parent ∈ record.parents) ∨ child ∈ idsUnder children parent := by
  unfold derivationEdges
  generalize record.parents = parents
  induction parents generalizing children with
  | nil => simp
  | cons first rest ih =>
    rw [foldl_cons, ih, mem_idsUnder_index, mem_cons]
    tauto

theorem Reversed.withEvidence (h : Reversed s) (record : Evidence)
    (hnew : s.evidence[record.id]? = none) :
    Reversed (s.withEvidence record (derivationEdges s.derivationChildren record)) := by
  intro parent child
  have hedge : ParentOf (s.evidence.insert record.id record) child parent ↔
      (child = record.id ∧ parent ∈ record.parents) ∨ ParentOf s.evidence child parent := by
    unfold ParentOf
    by_cases hid : record.id = child
    · subst hid
      simp [hnew]
    · simp [get_insert_ne _ hid, Ne.symm hid]
  exact (mem_derivationEdges _ _ _ _).trans (by rw [h parent child]; exact hedge.symm)

/-! ### Batches -/

/-- **A checked batch keeps the lineage in order.** A cycle through a stored
record would lie in the store, and one among new records in the batch. -/
theorem Lineage.batch (h : Lineage s) {pending : BTreeMap EvidenceId Evidence}
    (hord : LineageInOrder s pending)
    (hev : ∀ (id : EvidenceId) (record : Evidence), t.evidence[id]? = some record ↔
      s.evidence[id]? = some record ∨ pending[id]? = some record)
    (hchs : Reversed t) : Lineage t := by
  have hold : ∀ a b : EvidenceId, s.evidence[a]?.isSome → ParentOf t.evidence a b →
      ParentOf s.evidence a b := by
    rintro a b ha ⟨record, hget, hmem⟩
    obtain ⟨stored, hstor⟩ := isSome_iff_exists.mp ha
    have hsame := (hev a stored).mpr (Or.inl hstor)
    rw [hget] at hsame
    cases hsame
    exact ⟨record, hstor, hmem⟩
  refine
    { parents := fun id record hget parent hmem => ?_
      acyclic := h.acyclic.extend (fun a => s.evidence[a]?.isSome) hord.acyclic ?_ hold ?_
      children := hchs }
  · rcases (hev id record).mp hget with hstor | hnew
    · obtain ⟨stored, hpar, hsubj⟩ := h.parents id record hstor parent hmem
      exact ⟨stored, (hev parent stored).mpr (Or.inl hpar), hsubj⟩
    · obtain ⟨stored, hpar, hsubj⟩ := hord.parents id record hnew parent hmem
      exact ⟨stored, (hev parent stored).mpr hpar.symm, hsubj⟩
  · intro a b ha hab
    obtain ⟨record, hstor, hmem⟩ := hold a b ha hab
    obtain ⟨stored, hpar, -⟩ := h.parents a record hstor b hmem
    exact isSome_iff_exists.mpr ⟨stored, hpar⟩
  · rintro a b ha hb ⟨record, hget, hmem⟩
    have hpend : pending[a]? = some record := by
      rcases (hev a record).mp hget with hstor | hnew
      · exact absurd (isSome_iff_exists.mpr ⟨record, hstor⟩) ha
      · exact hnew
    refine neighbor_batchAdjacency.mpr ⟨record, hpend, hmem, ?_⟩
    obtain ⟨parent, hpar | hpar, -⟩ := hord.parents a record hpend b hmem
    · rw [contains_eq_isSome, hpar]
      rfl
    · exact absurd (isSome_iff_exists.mpr ⟨parent, hpar⟩) hb

theorem collectEvidence_spec {pending : BTreeMap EvidenceId Evidence} {collected : List Evidence}
    (hpend : ∀ (id : EvidenceId) (record : Evidence), pending[id]? = some record ↔
      record ∈ collected ∧ record.id = id) (observation : Evidence) :
    Checked.wp (collectEvidence s pending observation)
      (fun after => (∀ (id : EvidenceId) (record : Evidence), after[id]? = some record ↔
          record ∈ collected ++ [observation] ∧ record.id = id) ∧
        ∀ stored : Evidence, s.evidence[observation.id]? = some stored → stored = observation)
      (fun _ => True) := by
  unfold collectEvidence
  rw [Checked.wp_ite]
  refine ⟨fun _ => trivial, fun hno => ?_⟩
  rw [Bool.or_eq_true, not_or, Bool.not_eq_true, Bool.not_eq_true] at hno
  obtain ⟨hstor, hfirst⟩ := hno
  refine ⟨fun id record => ?_, fun stored hget => ?_⟩
  · rw [contains_eq_isSome]
    cases hget : pending[observation.id]? with
    | some first =>
      have hsame : first = observation := by
        rw [hget] at hfirst
        simpa using hfirst
      have hmem := (hpend observation.id first).mp hget
      rw [hsame] at hmem
      rw [isSome_some, if_pos rfl, hpend, mem_append, mem_singleton]
      grind
    | none =>
      rw [isSome_none, if_neg Bool.false_ne_true, get_insert]
      grind
  · rw [hget] at hstor
    simpa using hstor

/-- The records agree with the store and with each other. -/
structure Agree (s : KnowledgeState) (observations : List Evidence) : Prop where
  stored : ∀ o ∈ observations, ∀ stored : Evidence, s.evidence[o.id]? = some stored → stored = o
  same : ∀ o ∈ observations, ∀ o' ∈ observations, o.id = o'.id → o = o'

theorem Agree.tail {o : Evidence} {rest : List Evidence} (h : Agree s (o :: rest)) : Agree s rest :=
  ⟨fun a ha => h.stored a (mem_cons_of_mem _ ha), fun a ha b hb =>
    h.same a (mem_cons_of_mem _ ha) b (mem_cons_of_mem _ hb)⟩

theorem Agree.written {o : Evidence} {rest : List Evidence} (h : Agree s (o :: rest))
    (children : BTreeMap EvidenceId (BTreeSet EvidenceId)) : Agree (s.withEvidence o children) rest := by
  refine ⟨fun a ha stored hget => ?_, h.tail.same⟩
  rw [show KnowledgeState.evidence _ = s.evidence.insert o.id o from rfl, get_insert] at hget
  split_ifs at hget with hid
  · cases hget
    exact h.same _ mem_cons_self a (mem_cons_of_mem _ ha) hid
  · exact h.tail.stored a ha stored hget

theorem pendingEvidence_spec (observations : List Evidence) :
    Checked.wp (pendingEvidence s observations)
      (fun pending => (∀ (id : EvidenceId) (record : Evidence), pending[id]? = some record ↔
        record ∈ observations ∧ record.id = id) ∧ Agree s observations)
      (fun _ => True) := by
  refine Checked.wp_imp (Checked.wp_foldlM (b := ∅)
    (I := fun rest pending => ∃ collected, observations = collected ++ rest ∧
      (∀ (id : EvidenceId) (record : Evidence), pending[id]? = some record ↔
        record ∈ collected ∧ record.id = id) ∧
      ∀ observation ∈ collected, ∀ stored : Evidence,
        s.evidence[observation.id]? = some stored → stored = observation)
    ⟨[], rfl, by simp, by simp⟩ ?_) (fun pending hcoll => ?_)
  · rintro observation rest pending ⟨collected, hspl, hpend, hstor⟩
    refine Checked.wp_imp (collectEvidence_spec hpend observation) fun after haft => ?_
    refine ⟨collected ++ [observation], by simp [hspl], haft.1, fun o hmem => ?_⟩
    rcases mem_append.mp hmem with hmem | hmem
    · exact hstor o hmem
    · rw [mem_singleton.mp hmem]
      exact haft.2
  · obtain ⟨collected, hspl, hpend, hstor⟩ := hcoll
    rw [append_nil] at hspl
    subst hspl
    refine ⟨hpend, hstor, fun o ho o' ho' hid => ?_⟩
    have h1 := (hpend o.id o).mpr ⟨ho, rfl⟩
    rw [(hpend o.id o').mpr ⟨ho', hid.symm⟩] at h1
    exact (some.inj h1).symm

/-- The batch is written: what was stored and what it brings is stored then. -/
theorem recordEvidenceBatch_spec {ε : Type} : ∀ (observations : List Evidence) (s : KnowledgeState),
    Reversed s → Agree s observations →
    wp (recordEvidenceBatch observations : KnowledgeCommand ε (List KnowledgeWrite))
      (fun _ t => Reversed t ∧ ∀ (id : EvidenceId) (record : Evidence), t.evidence[id]? = some record ↔
        s.evidence[id]? = some record ∨ (record ∈ observations ∧ record.id = id))
      (fun _ _ => False) True s
  | [], s, hrev, _ => ⟨hrev, by simp⟩
  | o :: rest, s, hrev, hagree => by
    unfold recordEvidenceBatch
    simp only [wp_rules, wp_indexDerivation, wp_recordEvidence]
    refine ⟨fun hcont => ?_, fun hnew => ⟨fun _ => ?_, fun _ => trivial⟩⟩
    · rw [contains_eq_isSome, isSome_iff_exists] at hcont
      obtain ⟨first, hfirst⟩ := hcont
      have heq := hagree.stored o mem_cons_self first hfirst
      refine wp_imp (recordEvidenceBatch_spec rest s hrev hagree.tail) (fun _ t ht => ?_)
      refine ⟨ht.1, fun id record => (ht.2 id record).trans ?_⟩
      grind
    · have hnone := get_of_not_contains hnew
      refine wp_imp (recordEvidenceBatch_spec rest _ (hrev.withEvidence o hnone) (hagree.written _))
        (fun _ t ht => ?_)
      refine ⟨ht.1, fun id record => (ht.2 id record).trans ?_⟩
      show (s.evidence.insert o.id o)[id]? = some record ∨ _ ↔ _
      rw [get_insert]
      grind

/-! ### Calls -/

theorem insertEvidenceBatch_lineage (h : Lineage s) (order : HashOrder)
    (observations : List Evidence) :
    wp (insertEvidenceBatch order observations) (fun _ t => Lineage t) (fun _ t => t = s) True s := by
  unfold insertEvidenceBatch
  rw [wp_bind, wp_get, wp_bind, wp_lift]
  refine Checked.wp_mono (pendingEvidence_spec observations) (fun pending hpend => ?_)
    (fun _ _ => rfl)
  obtain ⟨hrecs, hagree⟩ := hpend
  rw [wp_bind]
  refine wp_mono (validateBatchDerivations_spec order pending) (fun _ u hu => ?_) (fun _ _ ht => ht)
    (fun _ => trivial)
  obtain ⟨rfl, hord⟩ := hu
  refine wp_mono (recordEvidenceBatch_spec observations u h.children hagree)
    (fun _ t ht => ?_) (fun _ _ he => he.elim) id
  refine h.batch hord (fun id record => ?_) ht.1
  rw [ht.2, hrecs]

/-- A record with a lineage in order, stored with its edges. -/
theorem Lineage.withEvidence (h : Lineage s) {record : Evidence}
    (hnew : s.evidence[record.id]? = none)
    (hord : LineageInOrder s ((∅ : BTreeMap EvidenceId Evidence).insert record.id record)) :
    Lineage (s.withEvidence record (derivationEdges s.derivationChildren record)) := by
  refine h.batch hord (fun id other => ?_) (h.children.withEvidence record hnew)
  show (s.evidence.insert record.id record)[id]? = some other ↔ _
  rw [get_insert, get_insert]
  grind

theorem parents_of_direct {record : Evidence} (h : record.origin.derivation = none) :
    record.parents = [] := by
  unfold Evidence.parents
  rw [h]

/-- A record that was not derived has its lineage in order. -/
theorem lineageInOrder_direct {record : Evidence} (h : record.origin.derivation = none) :
    LineageInOrder s ((∅ : BTreeMap EvidenceId Evidence).insert record.id record) := by
  have hemp : ∀ (id : EvidenceId) (other : Evidence),
      ((∅ : BTreeMap EvidenceId Evidence).insert record.id record)[id]? = some other →
        other.parents = [] := by
    intro id other hget
    rw [get_insert] at hget
    split_ifs at hget with hid
    · cases hget
      exact parents_of_direct h
    · simp at hget
  refine ⟨fun id other hget parent hmem => ?_, fun id hcycle => ?_⟩
  · rw [hemp id other hget] at hmem
    cases hmem
  · obtain ⟨next, hedge, -⟩ := TransGen.head'_iff.mp hcycle
    obtain ⟨other, hget, hmem, -⟩ := neighbor_batchAdjacency.mp hedge
    rw [hemp id other hget] at hmem
    cases hmem

theorem insertEvidence_lineage (h : Lineage s) (order : HashOrder) (record : Evidence) :
    wp (insertEvidence order record) (fun _ t => Lineage t) (fun _ t => t = s) True s := by
  unfold insertEvidence
  rw [wp_bind, wp_get]
  cases hstor : s.evidence[record.id]? with
  | some existing => simpa using fun _ => h
  | none =>
    simp only [wp_rules, wp_indexDerivation, wp_recordEvidence]
    refine ⟨fun _ => ?_, fun hdirect => ⟨fun _ => ?_, fun _ => trivial⟩⟩
    · refine wp_mono (validateBatchDerivations_spec order _) (fun _ t ht => ?_) (fun _ _ ht => ht)
        (fun _ => trivial)
      rw [ht.1]
      exact ⟨fun _ => h.withEvidence hstor ht.2, fun _ => trivial⟩
    · rw [Bool.not_eq_true, isSome_eq_false_iff, isNone_iff_eq_none] at hdirect
      exact h.withEvidence hstor (lineageInOrder_direct hdirect)

/-! ### Bundles -/

/-- The call stores a derived record through a bundle: the record is derived
and not stored yet, and the checks of the bundle and its relation pass. -/
def StoresDerivedBundle (s : KnowledgeState) : KnowledgeOp → Prop
  | .insertEvidenceWithRelation evidence relation =>
    evidence.origin.derivation.isSome = true ∧ s.evidence[evidence.id]? = none ∧
      checkBundle evidence relation = .ok () ∧ ∃ write, relationWrite s relation = .ok write
  | _ => False

/-- Without a derived record a bundle keeps the lineage in order. -/
theorem bundle_lineage (h : Lineage s) {record : Evidence} {relation : KnowledgeRelation}
    (hno : ¬ StoresDerivedBundle s (.insertEvidenceWithRelation record relation)) :
    wp (insertEvidenceWithRelation record relation) (fun _ t => Lineage t) (fun _ t => t = s) True s := by
  -- the relation is written to `t`, which `s` has become by then
  have hrel : ∀ t, Lineage t → t.relations = s.relations → Checked.wp (relationWrite s relation)
        (fun write => wp (recordRelation relation write : KnowledgeCommand KnowledgeBaseError Unit)
          (fun _ u => Lineage u) (fun _ u => u = s) True t) (fun _ => True) := by
    intro t ht hsame
    refine Checked.wp_mono (recordRelation_writes relation hsame) (fun write hwr => ?_) (fun _ h => h)
    refine wp_mono hwr (fun _ u hu => ?_) (fun _ _ h => h.elim) id
    exact ht.congr (records_frame hu).1 (records_frame hu).2
  unfold insertEvidenceWithRelation bundledWrite
  simp only [wp_rules]
  cases hchk : checkBundle record relation with
  | error e => trivial
  | ok _ =>
    rw [Checked.wp_ok]
    cases hstor : s.evidence[record.id]? with
    | some existing =>
      simp only [Checked.wp_rules, implies_true, and_true]
      intro _
      refine Checked.wp_imp (hrel s h rfl) fun write hwr => ?_
      simpa using hwr
    | none =>
      rw [Checked.wp_ok]
      cases hwr : relationWrite s relation with
      | error e => trivial
      | ok write =>
        have hdirect : record.origin.derivation = none := by
          by_contra hder
          exact hno ⟨isSome_iff_ne_none.mpr hder, hstor, hchk, write, hwr⟩
        have hlin : Lineage (s.withEvidence record s.derivationChildren) := by
          have hstep := h.withEvidence hstor (lineageInOrder_direct hdirect)
          unfold derivationEdges at hstep
          rw [parents_of_direct hdirect] at hstep
          exact hstep
        have hrec := hrel _ hlin rfl
        rw [hwr, Checked.wp_ok] at hrec
        simpa using fun _ => hrec

/-- A derived record stored through a bundle is missing among the reverse
edges of its parents. -/
theorem bundle_breaks (h : Lineage s) {op : KnowledgeOp} (hop : StoresDerivedBundle s op)
    (authority : KnowledgeAuthority) :
    wp (op.exec authority) (fun _ t => ¬ Lineage t) (fun _ _ => False) True s := by
  cases op with
  | insertEvidenceWithRelation record relation =>
    obtain ⟨hder, hnew, hchk, write, hwr⟩ := hop
    have hbroken : ∀ t, ReflTransGen RecordWrite (s.withEvidence record s.derivationChildren) t →
        ¬ Lineage t := by
      intro t hst hlin
      obtain ⟨hev, hchs⟩ := records_frame hst
      obtain ⟨derivation, hderiv⟩ := isSome_iff_exists.mp hder
      obtain ⟨parent, hpar⟩ : ∃ parent, parent ∈ record.parents := by
        unfold Evidence.parents
        rw [hderiv]
        refine exists_mem_of_ne_nil _ fun hemp => derivation.notEmpty ?_
        rwa [Std.ExtTreeSet.toList_eq_nil_iff] at hemp
      have hedge : ParentOf t.evidence record.id parent := by
        rw [hev]
        exact ⟨record, get_insert_self _ _ _, hpar⟩
      have hind := (hlin.children parent record.id).mpr hedge
      rw [hchs] at hind
      obtain ⟨old, hold, -⟩ := (h.children parent record.id).mp hind
      rw [hnew] at hold
      cases hold
    unfold KnowledgeOp.exec insertEvidenceWithRelation bundledWrite
    simp only [wp_rules, wp_mapErr, hchk, hnew, hwr, Checked.wp_ok]
    have hrec := recordRelation_writes (s := s) relation
      (t := s.withEvidence record s.derivationChildren) rfl
    rw [hwr, Checked.wp_ok] at hrec
    have hfinal := wp_imp hrec (fun _ t ht => hbroken t ht)
    simpa using fun _ => hfinal
  | _ => cases hop

/-! ### Runs -/

theorem exec_lineage (h : Lineage s) (authority : KnowledgeAuthority) {op : KnowledgeOp}
    (hno : ¬ StoresDerivedBundle s op) :
    wp (op.exec authority) (fun _ t => Lineage t) (fun _ t => t = s) True s := by
  by_cases hobs : op.observes = false
  · refine wp_mono (exec_records authority hobs s) (fun _ t hst => ?_) (fun _ _ ht => ht) id
    exact h.congr (records_frame hst).1 (records_frame hst).2
  · cases op with
    | insertEvidence order evidence =>
      rw [KnowledgeOp.exec, wp_map, wp_mapErr]
      exact insertEvidence_lineage h order evidence
    | insertEvidenceBatch order evidence =>
      rw [KnowledgeOp.exec, wp_map, wp_mapErr]
      exact insertEvidenceBatch_lineage h order evidence
    | insertEvidenceWithRelation evidence relation =>
      rw [KnowledgeOp.exec, wp_map, wp_mapErr]
      exact bundle_lineage h hno
    | _ => exact absurd rfl hobs

end Steps

section Runs

variable {authority : KnowledgeAuthority} {s : KnowledgeState} {ops : List KnowledgeOp}
  {trace : List (KnowledgeOp × Except KnowledgeFailure KnowledgeReply)}

theorem lineage_of_reply {t : KnowledgeState} {op : KnowledgeOp}
    {r : Except KnowledgeFailure KnowledgeReply} (h : Lineage s) (hno : ¬ StoresDerivedBundle s op)
    (hr : reply (op.exec authority) s = some (r, t)) : Lineage t := by
  obtain ⟨hok, herr, -⟩ := wp_iff_reply.mp (exec_lineage h authority hno)
  cases r with
  | ok value => exact hok value t hr
  | error e =>
    rw [herr e t hr]
    exact h

/-- **When the lineage is in order.** It is in order in every state a run
reaches if and only if no call of the run stores a derived record through a
bundle. -/
theorem lineage_iff_checked (hrun : run (KnowledgeOp.exec authority) .new ops = some (trace, s)) :
    (∀ (before after : List KnowledgeOp)
      (past : List (KnowledgeOp × Except KnowledgeFailure KnowledgeReply)) (t : KnowledgeState),
      ops = before ++ after → run (KnowledgeOp.exec authority) .new before = some (past, t) →
      Lineage t) ↔
    ∀ (before : List KnowledgeOp) (op : KnowledgeOp) (after : List KnowledgeOp)
      (past : List (KnowledgeOp × Except KnowledgeFailure KnowledgeReply)) (t : KnowledgeState),
      ops = before ++ op :: after → run (KnowledgeOp.exec authority) .new before = some (past, t) →
      ¬ StoresDerivedBundle t op := by
  constructor
  · intro hlin before op after past t hspl hbef hstores
    rw [hspl, ← List.singleton_append, ← List.append_assoc] at hrun
    obtain ⟨trace₁, u, -, -, hnext, -, -⟩ := run_append.mp hrun
    obtain ⟨past', t', trace₂, u', hbef', hop, heq⟩ := run_append.mp hnext
    rw [hbef] at hbef'
    cases hbef'
    cases heq
    obtain ⟨r, v, _, _, hr, hend, heq'⟩ := run_cons_eq_some.mp hop
    cases hend
    cases heq'
    have ht := hlin before (op :: after) past t hspl hbef
    have hu := hlin (before ++ [op]) after _ u (by simp [hspl]) hnext
    obtain ⟨hok, herr, -⟩ := wp_iff_reply.mp (bundle_breaks ht hstores authority)
    cases r with
    | ok value => exact hok value u hr hu
    | error e => exact herr e u hr
  · intro hchec before
    induction before using List.reverseRecOn with
    | nil =>
      intro after past t _ hemp
      cases hemp
      exact lineage_new
    | append_singleton before op ih =>
      intro after past t hspl hnext
      obtain ⟨past', t', _, u', hbef, hop, heq⟩ := run_append.mp hnext
      cases heq
      obtain ⟨r, v, _, _, hr, hend, heq'⟩ := run_cons_eq_some.mp hop
      cases hend
      cases heq'
      rw [List.append_assoc, List.singleton_append] at hspl
      exact lineage_of_reply (ih (op :: after) past' t' hspl hbef)
        (hchec before op after past' t' hspl hbef) hr

/-! ### A derived record -/

/-- A record derived from the observation of port 80. -/
def derivedObserved : Evidence :=
  { portObserved true with
    id := ⟨"derived", by decide⟩
    origin := .derived
      { parents := {(portObserved true).id}
        algorithm := ⟨"merge", 1, by decide, by decide⟩
        notEmpty := by decide
        bounded := by decide } }

/-- The sole edge of the derived record. -/
def derivedEdge : KnowledgeRelation where
  id := ⟨"edge", by decide⟩
  source := webHost
  target := ⟨"service", by decide⟩
  kind := .exposes
  confidence := (portObserved true).reliability
  evidenceIds := {derivedObserved.id}
  cited := by decide

theorem lineage_iff_checked_derived : ∃ trace s,
    run (KnowledgeOp.exec ⟨0⟩) .new [.insertEvidence .sorted (portObserved true),
      .insertEvidence .sorted derivedObserved] = some (trace, s) ∧
    trace.map (·.2.toOption) = [some (.write .inserted), some (.write .inserted)] ∧ Lineage s := by
  have hvalue : ((run (KnowledgeOp.exec ⟨0⟩) .new [.insertEvidence .sorted (portObserved true),
      .insertEvidence .sorted derivedObserved]).map fun q => q.1.map (·.2.toOption)) =
      some [some (.write .inserted), some (.write .inserted)] := by decide +kernel
  obtain ⟨⟨trace, s⟩, hrun, hrepl⟩ := Option.map_eq_some_iff.mp hvalue
  refine ⟨trace, s, hrun, hrepl, (lineage_iff_checked hrun).mpr ?_ _ [] trace s (by simp) hrun⟩
  intro before op after past t hspl _ hstores
  have hmem : op ∈ [KnowledgeOp.insertEvidence .sorted (portObserved true),
      .insertEvidence .sorted derivedObserved] := by
    rw [hspl]
    simp
  rcases List.mem_cons.mp hmem with rfl | hmem
  · exact hstores
  · rw [List.mem_singleton.mp hmem] at hstores
    exact hstores

/-- A bundle stores a derived record whose parent is not there. -/
theorem bundle_skips_lineage : ¬ ∀ (authority : KnowledgeAuthority) (ops : List KnowledgeOp)
    (trace : List (KnowledgeOp × Except KnowledgeFailure KnowledgeReply)) (s : KnowledgeState),
    run (KnowledgeOp.exec authority) .new ops = some (trace, s) → Lineage s := by
  intro hall
  have hvalue : ((run (KnowledgeOp.exec ⟨0⟩) .new
      [.insertEvidenceWithRelation derivedObserved derivedEdge]).map fun q =>
        (q.2.evidence[derivedObserved.id]?, q.2.evidence[(portObserved true).id]?)) =
      some (some derivedObserved, none) := by decide +kernel
  obtain ⟨⟨trace, s⟩, hrun, hpair⟩ := Option.map_eq_some_iff.mp hvalue
  obtain ⟨hder, hmiss⟩ := Prod.mk.inj hpair
  have hpar : (portObserved true).id ∈ derivedObserved.parents := by decide +kernel
  obtain ⟨stored, hstor, -⟩ := (hall _ _ _ _ hrun).parents _ _ hder _ hpar
  rw [hmiss] at hstor
  cases hstor

end Runs

end Termivar
