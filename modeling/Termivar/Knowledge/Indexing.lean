/-
# The indexes are exact

Every write of a new record indexes it under its keys, and every update keeps
the keys, so the indexes hold exactly the records there are; no call changes
what a stored record claims.
-/
import Termivar.Knowledge.Writes

namespace Termivar

open SecondaryIndex Relation Command

/-- Every index holds an identifier under a key if and only if its table has
a record of that identifier with that key, and every record is stored under
its own identifier. -/
structure Indexed (s : KnowledgeState) : Prop where
  evidenceBySubject : Exact s.evidence Evidence.subject s.evidenceBySubject
  evidenceByPredicate : Exact s.evidence Evidence.predicate s.evidenceByPredicate
  factsBySubject : Exact s.facts Fact.subject s.factsBySubject
  factsByPredicate : Exact s.facts Fact.predicate s.factsByPredicate
  hypothesesBySubject : Exact s.hypotheses Hypothesis.subject s.hypothesesBySubject
  hypothesesByPredicate : Exact s.hypotheses Hypothesis.predicate s.hypothesesByPredicate
  relationsFrom : Exact s.relations KnowledgeRelation.source s.relationsFrom
  relationsTo : Exact s.relations KnowledgeRelation.target s.relationsTo
  evidenceIds : Keyed Evidence.id s.evidence
  factIds : Keyed Fact.id s.facts
  hypothesisIds : Keyed Hypothesis.id s.hypotheses
  entityIds : Keyed KnowledgeEntity.id s.entities
  relationIds : Keyed KnowledgeRelation.id s.relations

/-- Observations and entities stay as they are, facts and hypotheses keep
their claims, relations keep their edges. -/
structure KeepsIdentity (s t : KnowledgeState) : Prop where
  evidence : Preserves id s.evidence t.evidence
  entities : Preserves id s.entities t.entities
  facts : Preserves Fact.claim s.facts t.facts
  hypotheses : Preserves Hypothesis.claim s.hypotheses t.hypotheses
  relations : Preserves KnowledgeRelation.edge s.relations t.relations

section Steps

variable {s t u : KnowledgeState}

theorem indexed_new : Indexed .new where
  evidenceBySubject := exact_empty
  evidenceByPredicate := exact_empty
  factsBySubject := exact_empty
  factsByPredicate := exact_empty
  hypothesesBySubject := exact_empty
  hypothesesByPredicate := exact_empty
  relationsFrom := exact_empty
  relationsTo := exact_empty
  evidenceIds := keyed_empty
  factIds := keyed_empty
  hypothesisIds := keyed_empty
  entityIds := keyed_empty
  relationIds := keyed_empty

/-- A write of a record that is not evidence keeps the indexes exact. -/
theorem Indexed.record (h : Indexed s) (hwr : RecordWrite s t) : Indexed t := by
  cases hwr with
  | ontology ontology => exact { h with }
  | newFact fact hnew =>
    exact { h with
      factsBySubject := h.factsBySubject.insert_new fact hnew
      factsByPredicate := h.factsByPredicate.insert_new fact hnew
      factIds := h.factIds.insert rfl }
  | updateFact fact hold hclaim =>
    obtain ⟨hsubj, hpred, -⟩ := Fact.claim_eq_iff.mp hclaim
    exact { h with
      factsBySubject := h.factsBySubject.insert_old fact hold hsubj
      factsByPredicate := h.factsByPredicate.insert_old fact hold hpred
      factIds := h.factIds.insert rfl }
  | newHypothesis hypothesis hnew =>
    exact { h with
      hypothesesBySubject := h.hypothesesBySubject.insert_new hypothesis hnew
      hypothesesByPredicate := h.hypothesesByPredicate.insert_new hypothesis hnew
      hypothesisIds := h.hypothesisIds.insert rfl }
  | updateHypothesis id hypothesis hold hid hclaim =>
    obtain ⟨hsubj, hpred, -⟩ := Hypothesis.claim_eq_iff.mp hclaim
    exact { h with
      hypothesesBySubject := h.hypothesesBySubject.insert_old hypothesis hold hsubj
      hypothesesByPredicate := h.hypothesesByPredicate.insert_old hypothesis hold hpred
      hypothesisIds := h.hypothesisIds.insert (hid (h.hypothesisIds _ _ hold)) }
  | newEntity entity hnew => exact { h with entityIds := h.entityIds.insert rfl }
  | newRelation relation hnew =>
    exact { h with
      relationsFrom := h.relationsFrom.insert_new relation hnew
      relationsTo := h.relationsTo.insert_new relation hnew
      relationIds := h.relationIds.insert rfl }
  | updateRelation relation hold hedge =>
    obtain ⟨hsource, htgt, -⟩ := KnowledgeRelation.edge_eq_iff.mp hedge
    exact { h with
      relationsFrom := h.relationsFrom.insert_old relation hold hsource
      relationsTo := h.relationsTo.insert_old relation hold htgt
      relationIds := h.relationIds.insert rfl }

theorem Indexed.step (h : Indexed s) (hstep : KnowledgeStep s t) : Indexed t := by
  cases hstep with
  | record hwr => exact h.record hwr
  | evidence evidence children hnew =>
    exact { h with
      evidenceBySubject := h.evidenceBySubject.insert_new evidence hnew
      evidenceByPredicate := h.evidenceByPredicate.insert_new evidence hnew
      evidenceIds := h.evidenceIds.insert rfl }

theorem Indexed.steps (h : Indexed s) (hst : ReflTransGen KnowledgeStep s t) : Indexed t := by
  induction hst with
  | refl => exact h
  | tail _ hstep ih => exact ih.step hstep

/-! ### Identities -/

theorem KeepsIdentity.refl (s : KnowledgeState) : KeepsIdentity s s :=
  ⟨.refl _, .refl _, .refl _, .refl _, .refl _⟩

theorem KeepsIdentity.trans (h : KeepsIdentity s t) (h' : KeepsIdentity t u) : KeepsIdentity s u where
  evidence := h.evidence.trans h'.evidence
  entities := h.entities.trans h'.entities
  facts := h.facts.trans h'.facts
  hypotheses := h.hypotheses.trans h'.hypotheses
  relations := h.relations.trans h'.relations

theorem KeepsIdentity.step (hstep : KnowledgeStep s t) : KeepsIdentity s t := by
  have hsame := KeepsIdentity.refl s
  cases hstep with
  | evidence evidence children hnew => exact { hsame with evidence := .insert_new evidence hnew }
  | record hwr =>
    cases hwr with
    | ontology ontology => exact { hsame with }
    | newFact fact hnew => exact { hsame with facts := .insert_new fact hnew }
    | updateFact fact hold hclaim => exact { hsame with facts := .insert_old hold hclaim }
    | newHypothesis hypothesis hnew =>
      exact { hsame with hypotheses := .insert_new hypothesis hnew }
    | updateHypothesis id hypothesis hold hid hclaim =>
      exact { hsame with hypotheses := .insert_old hold hclaim }
    | newEntity entity hnew => exact { hsame with entities := .insert_new entity hnew }
    | newRelation relation hnew => exact { hsame with relations := .insert_new relation hnew }
    | updateRelation relation hold hedge => exact { hsame with relations := .insert_old hold hedge }

theorem KeepsIdentity.steps (hst : ReflTransGen KnowledgeStep s t) : KeepsIdentity s t := by
  induction hst with
  | refl => exact .refl s
  | tail _ hstep ih => exact ih.trans (.step hstep)

end Steps

/-! ### Runs -/

section Runs

variable {authority : KnowledgeAuthority} {s t : KnowledgeState} {ops : List KnowledgeOp}
  {trace : List (KnowledgeOp × Except KnowledgeFailure KnowledgeReply)}

/-- A call that answers made its writes, none if the answer is an error. -/
theorem steps_of_reply {op : KnowledgeOp} {r : Except KnowledgeFailure KnowledgeReply}
    (hr : reply (op.exec authority) s = some (r, t)) : ReflTransGen KnowledgeStep s t := by
  obtain ⟨hok, herr, -⟩ := wp_iff_reply.mp (exec_writes authority op s)
  cases r with
  | ok value => exact hok value t hr
  | error e =>
    rw [herr e t hr]

theorem steps_of_run (hrun : run (KnowledgeOp.exec authority) s ops = some (trace, t)) :
    ReflTransGen KnowledgeStep s t :=
  run_preserves (I := ReflTransGen KnowledgeStep s) (fun hs hr => hs.trans (steps_of_reply hr))
    ReflTransGen.refl hrun

theorem indexed_of_run (hrun : run (KnowledgeOp.exec authority) .new ops = some (trace, s)) :
    Indexed s :=
  indexed_new.steps (steps_of_run hrun)

/-- A transition that is refused, or finds the state as asked, writes nothing. -/
theorem transition_refused (authority : KnowledgeAuthority) (hypothesisId : String) (expectedSubject : EntityId)
    (newState : HypothesisState) (expectedRevisions : Option (Nat × Nat)) (now : Nat) :
    wp ((KnowledgeOp.transitionHypothesisState hypothesisId expectedSubject newState
        expectedRevisions now).exec authority)
      (fun r t => r ≠ .transition (.written .updated) → t = s) (fun _ t => t = s) True s := by
  unfold KnowledgeOp.exec transitionHypothesisState
  rw [wp_map, wp_bind, wp_get]
  cases s.hypotheses[hypothesisId]? with
  | none => exact fun _ => rfl
  | some hypothesis =>
    simp only [wp_rules, implies_true, true_and]
    intro _ _ _
    cases staleRevisions s expectedSubject expectedRevisions with
    | some failure => exact fun _ => rfl
    | none => simp

/-- **The indexes are exact over every run.** In every state reached they hold
the records there are; a call that fails, or a transition that is refused,
leaves the state as it was; and no further run changes an observation, an
entity, the claim of a fact or a hypothesis or the edge of a relation. -/
theorem indexes_exact (hrun : run (KnowledgeOp.exec authority) .new ops = some (trace, s)) :
    Indexed s ∧
    (∀ (op : KnowledgeOp) (e : KnowledgeFailure) (t : KnowledgeState),
      reply (op.exec authority) s = some (.error e, t) → t = s) ∧
    (∀ (hypothesisId : String) (subject : EntityId) (newState : HypothesisState)
      (revisions : Option (Nat × Nat)) (now : Nat) (r : Except KnowledgeFailure KnowledgeReply)
      (t : KnowledgeState),
      reply ((KnowledgeOp.transitionHypothesisState hypothesisId subject newState revisions now).exec
        authority) s = some (r, t) → r ≠ .ok (.transition (.written .updated)) → t = s) ∧
    ∀ (more : List KnowledgeOp)
      (trace' : List (KnowledgeOp × Except KnowledgeFailure KnowledgeReply)) (t : KnowledgeState),
      run (KnowledgeOp.exec authority) s more = some (trace', t) → KeepsIdentity s t := by
  refine ⟨indexed_of_run hrun, fun op e t hr => ?_, ?_, fun more trace' t hmore => ?_⟩
  · exact (wp_iff_reply.mp (exec_writes authority op s)).2.1 e t hr
  · intro hypothesisId subject newState revisions now r t hr hne
    obtain ⟨hok, herr, -⟩ := wp_iff_reply.mp (transition_refused authority hypothesisId
      subject newState revisions now)
    cases r with
    | ok value => exact hok value t hr fun heq => hne (by rw [heq])
    | error e => exact herr e t hr
  · exact .steps (steps_of_run hmore)

/-! ### One host -/

/-- The iteration order of the ordered map. -/
def HashOrder.sorted : HashOrder where
  entries records := records.toList
  perm _ := .refl _

def webHost : EntityId := ⟨"host", by decide⟩

/-- Whether port 80 of the host answered. -/
def portObserved (answered : Bool) : Evidence where
  id := ⟨"port-80", by decide⟩
  subject := webHost
  kind := .network
  predicate := ⟨"port", "open", by decide, by decide⟩
  value := .boolean answered
  source := ⟨"probe", "connect", none, by decide, by decide, by decide⟩
  reliability := ⟨9000, by decide⟩
  observedAtMs := 1
  origin := .direct

/-- An observation, and another one under its identifier. -/
def portRun : List KnowledgeOp :=
  [.insertEvidence .sorted (portObserved true), .insertEvidence .sorted (portObserved false)]

theorem indexes_exact_port : ∃ trace s, run (KnowledgeOp.exec ⟨0⟩) .new portRun = some (trace, s) ∧
    trace.map (·.2.toOption) = [some (.write .inserted), none] ∧
    s.evidenceForSubject webHost = [portObserved true] ∧ Indexed s ∧
    ∀ (more : List KnowledgeOp)
      (trace' : List (KnowledgeOp × Except KnowledgeFailure KnowledgeReply)) (t : KnowledgeState),
      run (KnowledgeOp.exec ⟨0⟩) s more = some (trace', t) → KeepsIdentity s t := by
  have hvalue : ((run (KnowledgeOp.exec ⟨0⟩) .new portRun).map fun q =>
      (q.1.map (·.2.toOption), q.2.evidenceForSubject webHost)) =
      some ([some (.write .inserted), none], [portObserved true]) := by decide +kernel
  obtain ⟨⟨trace, s⟩, hrun, hpair⟩ := Option.map_eq_some_iff.mp hvalue
  obtain ⟨hrepl, hev⟩ := Prod.mk.inj hpair
  obtain ⟨hind, -, -, hkeep⟩ := indexes_exact hrun
  exact ⟨trace, s, hrun, hrepl, hev, hind, hkeep⟩

end Runs

end Termivar
