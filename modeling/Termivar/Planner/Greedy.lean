/-
# What the planner checks and selects

The prerequisites of a planner's actions are accepted exactly if each is
registered and no action needs itself. The selection then keeps an invariant
from one candidate to the next (`Chosen`): the actions taken come after their
prerequisites and within the budget, and every candidate seen and not taken
needs an action that is not eligible, or what it still needs costs more than is
left. An action that does not fit never fits later: whatever is taken since
spends at least what it saves the action.
-/
import Termivar.Planner.Selection
import Termivar.Rules.Provenance

namespace Termivar

open Command Relation DepthFirst List

/-! ### Prerequisites -/

namespace AttackPlanner

variable {planner : AttackPlanner}

/-- An action lists a prerequisite. -/
def Requires (planner : AttackPlanner) (a b : String) : Prop :=
  ∃ action, planner.actions[a]? = some action ∧ b ∈ action.prerequisites

/-- Every prerequisite is registered. -/
def Closed (planner : AttackPlanner) : Prop :=
  ∀ a b, planner.Requires a b → ∃ action, planner.actions[b]? = some action

theorem edge_iff {a b : String} : Edge planner.prerequisitesOf a b ↔ planner.Requires a b := by
  simp [Edge, prerequisitesOf, Requires]

variable {id : String} {V : Type}

theorem mem_ids : id ∈ planner.ids ↔ ∃ action, planner.actions[id]? = some action := by
  unfold ids
  rw [mem_map]
  constructor
  · rintro ⟨⟨id, action⟩, hmem, rfl⟩
    exact ⟨action, mem_toList.mp hmem⟩
  · rintro ⟨action, hget⟩
    exact ⟨(id, action), mem_toList.mpr hget, rfl⟩

theorem ids_nodup : planner.ids.Nodup := keys_nodup planner.actions

theorem card_ids_lt : planner.ids.toFinset.card < planner.depth := by
  rw [toFinset_card_of_nodup ids_nodup, ids, length_map, Std.ExtTreeMap.length_toList]
  exact Nat.lt_succ_self _

theorem unknownPrerequisite_eq_none : planner.unknownPrerequisite = none ↔ planner.Closed := by
  unfold unknownPrerequisite Closed Requires
  simp only [findSome?_eq_none_iff, Option.map_eq_none_iff, find?_eq_none]
  constructor
  · rintro h a b ⟨action, hget, hmem⟩
    have hkn := h (a, action) (mem_toList.mpr hget) b (Std.ExtTreeSet.mem_toList.mpr hmem)
    rw [contains_eq_isSome] at hkn
    refine Option.isSome_iff_exists.mp ?_
    cases hsome : planner.actions[b]?.isSome <;> simp_all
  · rintro h ⟨a, action⟩ hget b hmem
    obtain ⟨action', hget'⟩ := h a b ⟨action, mem_toList.mp hget, Std.ExtTreeSet.mem_toList.mp hmem⟩
    rw [contains_eq_isSome, hget']
    simp

theorem unknownPrerequisite_eq_some {a b : String} (h : planner.unknownPrerequisite = some (a, b)) :
    ¬ planner.Closed := by
  intro hclosed
  rw [unknownPrerequisite_eq_none.mpr hclosed] at h
  cases h

/-- The prerequisites are accepted exactly if each is registered and no action
needs itself. -/
theorem validateDependencies_spec {σ : Type} (s : σ) :
    wp (planner.validateDependencies)
      (fun _ t => t = s ∧ planner.Closed ∧ GraphSearch.Acyclic planner.Requires)
      (fun e t => t = s ∧ ((∃ a b, e = .unknownPrerequisite a b ∧ ¬ planner.Closed) ∨
        ∃ a, e = .dependencyCycle a ∧ ¬ GraphSearch.Acyclic planner.Requires)) False s := by
  unfold validateDependencies
  cases hunkn : planner.unknownPrerequisite with
  | some pair =>
    exact ⟨rfl, Or.inl ⟨pair.1, pair.2, rfl, unknownPrerequisite_eq_some hunkn⟩⟩
  | none =>
    have hclosed := unknownPrerequisite_eq_none.mp hunkn
    have hgraph : ∀ a ∈ planner.ids.toFinset, ∃ nodes, planner.prerequisitesOf a = some nodes ∧
        ∀ b ∈ nodes, b ∈ planner.ids.toFinset := by
      intro a ha
      obtain ⟨action, hget⟩ := mem_ids.mp (mem_toFinset.mp ha)
      refine ⟨action.prerequisites.toList, by simp [prerequisitesOf, hget], fun b hb => ?_⟩
      have hb := Std.ExtTreeSet.mem_toList.mp hb
      exact mem_toFinset.mpr (mem_ids.mpr (hclosed a b ⟨action, hget, hb⟩))
    simp only [wp_rules, wp_locally]
    refine wp_mono (visitEach_spec hgraph card_ids_lt fun a ha => mem_toFinset.mpr ha)
      (fun _ _ hends => ⟨trivial, hclosed, fun a hloop => ?_⟩) (fun e _ he => ?_) id
    · -- a node on a cycle has an edge, so it is registered
      obtain ⟨b, ⟨action, hget, -⟩, -⟩ := TransGen.head'_iff.mp hloop
      refine (hends a (mem_ids.mpr ⟨action, hget⟩)).acyclic ?_
      exact TransGen.mono (fun _ _ => edge_iff.mpr) _ _ hloop
    · obtain ⟨a, rfl, hloop⟩ := he
      refine ⟨trivial, Or.inr ⟨a, rfl, fun hacyclic => hacyclic a ?_⟩⟩
      exact TransGen.mono (fun _ _ => edge_iff.mp) _ _ hloop

/-! ### Candidates -/

/-- What the evaluation of a registered action comes to. -/
def verdict (planner : AttackPlanner) (snapshot : KnowledgeSnapshot) (context : PlanningContext)
    (suppressed : BTreeSet String) (id : String) :
    Option (Except PlannerError (Except ExclusionReason EligibleCandidate)) :=
  planner.actions[id]?.map fun action =>
    evaluateCandidate action snapshot context (policySuppression suppressed action.id)

/-- The eligible actions and the others are those the evaluation says. -/
structure Classified (planner : AttackPlanner) (snapshot : KnowledgeSnapshot)
    (context : PlanningContext) (suppressed : BTreeSet String) (candidates : Candidates) : Prop where
  evaluated : ∀ id ∈ planner.ids, ∃ result,
    planner.verdict snapshot context suppressed id = some (.ok result)
  eligible : ∀ id candidate, candidates.eligible[id]? = some candidate ↔
    planner.verdict snapshot context suppressed id = some (.ok (.ok candidate))
  exclusions : ∀ id reason, candidates.exclusions[id]? = some reason ↔
    planner.verdict snapshot context suppressed id = some (.ok (.error reason))

/-- Whether a reason comes from the selection and not from the action itself. -/
def ofSelection : ExclusionReason → Bool
  | .dependencyUnavailable _ => true
  | .budgetExceeded _ _ => true
  | _ => false

/-- What the evaluation of an action can come to. -/
theorem evaluateCandidate_cases (action : AttackAction) (snapshot : KnowledgeSnapshot)
    (context : PlanningContext) (suppression : Option ExclusionReason) :
    (∃ reason, suppression = some reason ∧
      evaluateCandidate action snapshot context suppression = .ok (.error reason)) ∨
    suppression = none ∧
    ((∃ failure, evaluateNode snapshot action.requirements = .error failure ∧
      evaluateCandidate action snapshot context suppression = .error (.rule failure)) ∨
    (∃ reason, ofSelection reason = false ∧
      evaluateCandidate action snapshot context suppression = .ok (.error reason)) ∨
    ∃ trace hypothesis target, evaluateNode snapshot action.requirements = .ok trace ∧
      trace.matched = true ∧ action.risk.basisPoints ≤ context.maximumRisk.basisPoints ∧
      action.confidenceSource.select snapshot.hypotheses = some hypothesis ∧
      action.verificationTarget.resolve snapshot.hypotheses hypothesis.id = some target ∧
      evaluateCandidate action snapshot context suppression = .ok (.ok
        { action
          confidenceHypothesisId := hypothesis.id
          verificationTarget := target
          requirements := trace
          utility := UtilityBreakdown.calculate action.gain hypothesis.belief.posterior
            context.businessValue action.cost action.risk })) := by
  cases suppression with
  | some reason => exact Or.inl ⟨reason, rfl, rfl⟩
  | none =>
    refine Or.inr ⟨rfl, ?_⟩
    unfold evaluateCandidate
    cases evaluateNode snapshot action.requirements with
    | error failure => exact Or.inl ⟨failure, rfl, rfl⟩
    | ok trace =>
      refine Or.inr ?_
      simp only [Except.mapError, bind, Except.bind]
      by_cases hmat : (!trace.matched) = true
      · exact Or.inl ⟨.requirementsNotMet, rfl, by rw [if_pos hmat]; rfl⟩
      rw [if_neg hmat]
      by_cases hrisk : context.maximumRisk.basisPoints < action.risk.basisPoints
      · exact Or.inl ⟨.riskLimitExceeded action.risk context.maximumRisk, rfl, by
          rw [if_pos hrisk]; rfl⟩
      rw [if_neg hrisk]
      cases hselect : action.confidenceSource.select snapshot.hypotheses with
      | none => exact Or.inl ⟨.noEligibleHypothesis, rfl, rfl⟩
      | some hypothesis =>
        simp only
        cases hresolve : action.verificationTarget.resolve snapshot.hypotheses hypothesis.id with
        | none => exact Or.inl ⟨.noEligibleVerificationTarget, rfl, rfl⟩
        | some target =>
          simp only
          split_ifs with hutil
          · exact Or.inl ⟨_, rfl, rfl⟩
          · refine Or.inr ⟨trace, hypothesis, target, rfl, ?_, not_lt.mp hrisk, rfl, hresolve, rfl⟩
            simpa using hmat

variable {snapshot : KnowledgeSnapshot} {context : PlanningContext} {suppressed : BTreeSet String}

/-- The candidate of an action is about the action. -/
theorem action_of_verdict {candidate : EligibleCandidate}
    (h : planner.verdict snapshot context suppressed id = some (.ok (.ok candidate))) :
    planner.actions[id]? = some candidate.action ∧ candidate.action.id = id ∧
      candidate.utility.cost = candidate.action.cost := by
  obtain ⟨action, hget, heval⟩ := Option.map_eq_some_iff.mp h
  have hid := planner.keyed id action hget
  obtain ⟨reason, -, hres⟩ | ⟨-, ⟨failure, -, hres⟩ | ⟨reason, -, hres⟩ |
    ⟨trace, hypothesis, target, -, -, -, -, -, hres⟩⟩ := evaluateCandidate_cases action snapshot
      context (policySuppression suppressed action.id)
  · cases heval.symm.trans hres
  · cases heval.symm.trans hres
  · cases heval.symm.trans hres
  · cases heval.symm.trans hres
    exact ⟨hget, hid, rfl⟩

/-- An action is not excluded for a reason of the selection by its evaluation. -/
theorem ofSelection_of_verdict {reason : ExclusionReason}
    (h : planner.verdict snapshot context suppressed id = some (.ok (.error reason))) :
    ofSelection reason = false := by
  obtain ⟨action, -, heval⟩ := Option.map_eq_some_iff.mp h
  obtain ⟨reason', hsupp, hres⟩ | ⟨-, ⟨failure, -, hres⟩ | ⟨reason', hown, hres⟩ |
    ⟨trace, hypothesis, target, -, -, -, -, -, hres⟩⟩ := evaluateCandidate_cases action snapshot
      context (policySuppression suppressed action.id)
  · cases heval.symm.trans hres
    unfold policySuppression at hsupp
    split_ifs at hsupp
    cases hsupp
    rfl
  · cases heval.symm.trans hres
  · cases heval.symm.trans hres
    exact hown
  · cases heval.symm.trans hres

/-- A table of what holds of the actions seen so far. -/
def Tabulates (holds : AttackAction → V → Prop) (seen : List AttackAction)
    (table : BTreeMap String V) : Prop :=
  ∀ id v, table[id]? = some v ↔ ∃ action ∈ seen, action.id = id ∧ holds action v

theorem Tabulates.insert {holds : AttackAction → V → Prop} {seen : List AttackAction}
    {table : BTreeMap String V} {action : AttackAction} {v : V} (h : Tabulates holds seen table)
    (hnew : ∀ other ∈ seen, other.id ≠ action.id) (hv : ∀ v', holds action v' ↔ v' = v) :
    Tabulates holds (seen ++ [action]) (table.insert action.id v) := by
  intro id v'
  rw [get_insert]
  split_ifs with hid
  · subst hid
    constructor
    · intro heq
      cases heq
      exact ⟨action, by simp, rfl, (hv v).mpr rfl⟩
    · rintro ⟨other, hoth, hsame, hhold⟩
      rcases mem_append.mp hoth with hoth | hoth
      · exact absurd hsame (hnew other hoth)
      · cases mem_singleton.mp hoth
        rw [(hv v').mp hhold]
  · rw [h id v']
    refine exists_congr fun other => ?_
    rw [mem_append, mem_singleton, or_and_right]
    refine ⟨Or.inl, fun hor => hor.resolve_right ?_⟩
    rintro ⟨rfl, hsame, -⟩
    exact hid hsame

theorem Tabulates.skip {holds : AttackAction → V → Prop} {seen : List AttackAction}
    {table : BTreeMap String V} {action : AttackAction} (h : Tabulates holds seen table)
    (hv : ∀ v, ¬ holds action v) : Tabulates holds (seen ++ [action]) table := by
  intro id v
  rw [h id v]
  refine exists_congr fun other => ?_
  rw [mem_append, mem_singleton, or_and_right]
  refine ⟨Or.inl, fun hor => hor.resolve_right ?_⟩
  rintro ⟨rfl, -, hhold⟩
  exact hv v hhold

/-- The verdict on one action. -/
def evaluation (snapshot : KnowledgeSnapshot) (context : PlanningContext)
    (suppressed : BTreeSet String) (action : AttackAction) :
    Except PlannerError (Except ExclusionReason EligibleCandidate) :=
  evaluateCandidate action snapshot context (policySuppression suppressed action.id)

/-- The actions seen so far are classified as their evaluation says. -/
structure ClassifiedSoFar (snapshot : KnowledgeSnapshot) (context : PlanningContext)
    (suppressed : BTreeSet String) (seen : List AttackAction) (candidates : Candidates) : Prop where
  evaluated : ∀ action ∈ seen, ∃ result, evaluation snapshot context suppressed action = .ok result
  eligible : Tabulates (fun action candidate =>
    evaluation snapshot context suppressed action = .ok (.ok candidate)) seen candidates.eligible
  exclusions : Tabulates (fun action reason =>
    evaluation snapshot context suppressed action = .ok (.error reason)) seen candidates.exclusions

/-- Why an evaluation fails: the condition of an action that is not suppressed. -/
def RequirementFails (planner : AttackPlanner) (snapshot : KnowledgeSnapshot)
    (suppressed : BTreeSet String) (failure : RuleEngineError) : Prop :=
  ∃ id action, planner.actions[id]? = some action ∧ suppressed.contains id = false ∧
    evaluateNode snapshot action.requirements = .error failure

theorem classifyOne_spec {seen : List AttackAction} {candidates : Candidates} {action : AttackAction}
    (h : ClassifiedSoFar snapshot context suppressed seen candidates)
    (hnew : ∀ other ∈ seen, other.id ≠ action.id) :
    Checked.wp (classifyOne snapshot context suppressed candidates action)
      (ClassifiedSoFar snapshot context suppressed (seen ++ [action]))
      fun e => suppressed.contains action.id = false ∧ ∃ failure,
        evaluateNode snapshot action.requirements = .error failure ∧ e = .rule failure := by
  have hevaluated : ∀ result, evaluation snapshot context suppressed action = .ok result →
      ∀ other ∈ seen ++ [action], ∃ result, evaluation snapshot context suppressed other = .ok result := by
    intro result hres other hoth
    rcases mem_append.mp hoth with hoth | hoth
    · exact h.evaluated other hoth
    · cases mem_singleton.mp hoth
      exact ⟨result, hres⟩
  unfold classifyOne
  rw [Checked.wp_bind]
  cases heval : evaluateCandidate action snapshot context (policySuppression suppressed action.id) with
  | error e =>
    obtain ⟨reason, -, hres⟩ | ⟨hnone, ⟨failure, hfail, hres⟩ | ⟨reason, -, hres⟩ |
      ⟨trace, hypothesis, target, -, -, -, -, -, hres⟩⟩ := evaluateCandidate_cases action snapshot
        context (policySuppression suppressed action.id)
    · cases heval.symm.trans hres
    · cases heval.symm.trans hres
      refine ⟨?_, failure, hfail, rfl⟩
      unfold policySuppression at hnone
      split_ifs at hnone with hcont
      exact (Bool.not_eq_true _).mp hcont
    · cases heval.symm.trans hres
    · cases heval.symm.trans hres
  | ok result =>
    have hsame : evaluation snapshot context suppressed action = .ok result := heval
    cases result with
    | ok candidate =>
      refine ⟨hevaluated _ hsame, h.eligible.insert hnew fun v => ?_, h.exclusions.skip fun v => ?_⟩
      · rw [hsame]
        simp [eq_comm]
      · rw [hsame]
        simp
    | error reason =>
      refine ⟨hevaluated _ hsame, h.eligible.skip fun v => ?_, h.exclusions.insert hnew fun v => ?_⟩
      · rw [hsame]
        simp
      · rw [hsame]
        simp [eq_comm]

theorem verdict_eq {result : Except ExclusionReason EligibleCandidate} :
    planner.verdict snapshot context suppressed id = some (.ok result) ↔
      ∃ action ∈ planner.actions.toList.map Prod.snd, action.id = id ∧
        evaluation snapshot context suppressed action = .ok result := by
  unfold verdict
  rw [Option.map_eq_some_iff]
  constructor
  · rintro ⟨action, hget, heval⟩
    exact ⟨action, mem_map.mpr ⟨(id, action), mem_toList.mpr hget, rfl⟩,
      planner.keyed id action hget, heval⟩
  · rintro ⟨action, hmem, rfl, heval⟩
    obtain ⟨⟨id, action⟩, hent, rfl⟩ := mem_map.mp hmem
    have hget := mem_toList.mp hent
    rw [planner.keyed id action hget]
    exact ⟨action, hget, heval⟩

theorem actions_ids_eq : (planner.actions.toList.map Prod.snd).map AttackAction.id = planner.ids := by
  unfold ids
  rw [List.map_map]
  refine List.map_congr_left fun entry hent => ?_
  exact planner.keyed entry.1 entry.2 (mem_toList.mp hent)

/-- The actions are classified as their evaluation says, or a condition fails. -/
theorem classify_spec : Checked.wp (planner.classify snapshot context suppressed)
    (Classified planner snapshot context suppressed)
    fun e => ∃ failure, e = .rule failure ∧ planner.RequirementFails snapshot suppressed failure := by
  have hnd : ((planner.actions.toList.map Prod.snd).map AttackAction.id).Nodup := by
    rw [actions_ids_eq]
    exact ids_nodup
  refine Checked.wp_imp (Checked.wp_foldlM (I := fun rest candidates => ∃ seen,
    planner.actions.toList.map Prod.snd = seen ++ rest ∧
      ClassifiedSoFar snapshot context suppressed seen candidates)
    ⟨[], rfl, fun _ h => absurd h not_mem_nil, fun id v => by simp, fun id v => by simp⟩ ?_) ?_
  · rintro action rest candidates ⟨seen, hspl, hseen⟩
    have hnew : ∀ other ∈ seen, other.id ≠ action.id := by
      rw [hspl, map_append, nodup_append] at hnd
      intro other hoth
      exact hnd.2.2 _ (mem_map_of_mem hoth) _ (by simp)
    refine Checked.wp_mono (classifyOne_spec hseen hnew)
      (fun candidates' h' => ⟨seen ++ [action], by simp [hspl], h'⟩) ?_
    rintro e ⟨hsupp, failure, hfail, rfl⟩
    have hmem : action ∈ planner.actions.toList.map Prod.snd := by simp [hspl]
    obtain ⟨⟨id, stored⟩, hent, rfl⟩ := mem_map.mp hmem
    have hget := mem_toList.mp hent
    rw [planner.keyed id stored hget] at hsupp
    exact ⟨failure, rfl, id, stored, hget, hsupp, hfail⟩
  · rintro candidates ⟨seen, hspl, hseen⟩
    rw [append_nil] at hspl
    refine ⟨fun id hid => ?_, fun id candidate => ?_, fun id reason => ?_⟩
    · rw [← actions_ids_eq, mem_map] at hid
      obtain ⟨action, hmem, rfl⟩ := hid
      obtain ⟨result, hres⟩ := hseen.evaluated action (hspl ▸ hmem)
      exact ⟨result, verdict_eq.mpr ⟨action, hmem, rfl, hres⟩⟩
    · rw [verdict_eq, hspl]
      exact hseen.eligible id candidate
    · rw [verdict_eq, hspl]
      exact hseen.exclusions id reason

end AttackPlanner

/-! ### Selection -/

section Selection

variable {eligible : BTreeMap String EligibleCandidate} {budget : Nat}

/-- The cost of the actions within reach of one that are not taken is more than
what is left of the budget. -/
def TooCostly (eligible : BTreeMap String EligibleCandidate) (budget : Nat) (state : Selection)
    (a : String) : Prop :=
  ∃ closure : Finset String,
    (∀ b, b ∈ closure ↔
      ReflTransGen (Edge (eligiblePrerequisites eligible)) a b ∧ b ∉ state.ordered) ∧
    budget < state.totalCost + ∑ b ∈ closure, costOf eligible b

/-- What is known after some candidates were seen. -/
structure Chosen (eligible : BTreeMap String EligibleCandidate) (budget : Nat)
    (initial : BTreeMap String ExclusionReason) (seen : List String) (state : Selection) : Prop where
  selected_iff : ∀ b, b ∈ state.selected ↔ b ∈ state.ordered
  topological : Topological (eligiblePrerequisites eligible) (fun _ => False) state.ordered
  total : state.totalCost = (state.ordered.map (costOf eligible)).sum
  within : state.totalCost ≤ budget
  decided : ∀ a ∈ seen, a ∈ state.ordered ∨
    (∃ u, state.exclusions[a]? = some (.dependencyUnavailable u) ∧
      ¬ Available (eligiblePrerequisites eligible) a) ∨
    ∃ r m, state.exclusions[a]? = some (.budgetExceeded r m) ∧
      Available (eligiblePrerequisites eligible) a ∧ TooCostly eligible budget state a
  untouched : ∀ a, a ∉ seen → state.exclusions[a]? = initial[a]?

theorem foldl_cost (ids : List String) (start : Nat) :
    ids.foldl (fun sum id => sum + costOf eligible id) start =
      start + (ids.map (costOf eligible)).sum := by
  induction ids generalizing start with
  | nil => simp
  | cons id ids ih => simp [ih, Nat.add_assoc]

/-- Taking actions that are not taken yet. -/
theorem foldl_takeAction : ∀ (ids : List String) (state : Selection), ids.Nodup →
    (∀ b ∈ ids, b ∉ state.selected) → ∃ selected : BTreeSet String,
      (∀ b, b ∈ selected ↔ b ∈ state.selected ∨ b ∈ ids) ∧
      ids.foldl (takeAction eligible) state =
        { selected
          ordered := state.ordered ++ ids
          totalCost := state.totalCost + (ids.map (costOf eligible)).sum
          exclusions := state.exclusions }
  | [], state, _, _ => ⟨state.selected, by simp, by simp⟩
  | id :: ids, state, hnd, hfsh => by
    obtain ⟨hnot, hnd⟩ := nodup_cons.mp hnd
    obtain ⟨hid, hfsh⟩ := forall_mem_cons.mp hfsh
    have htake : takeAction eligible state id =
        { state with
          selected := state.selected.insert id
          totalCost := state.totalCost + costOf eligible id
          ordered := state.ordered ++ [id] } := by
      unfold takeAction
      rw [if_neg (by simpa using hid)]
    have hfsh' : ∀ b ∈ ids, b ∉ state.selected.insert id := by
      intro b hb
      rw [mem_insert_iff, not_or]
      exact ⟨fun heq => hnot (heq ▸ hb), hfsh b hb⟩
    obtain ⟨selected, hmem, hfold⟩ := foldl_takeAction ids
      { state with
        selected := state.selected.insert id
        totalCost := state.totalCost + costOf eligible id
        ordered := state.ordered ++ [id] } hnd hfsh'
    refine ⟨selected, fun b => ?_, ?_⟩
    · rw [hmem, mem_insert_iff, mem_cons]
      tauto
    · rw [foldl_cons, htake, hfold]
      simp [Nat.add_assoc]

theorem isSome_of_mem {ordered : List String} {done : String → Prop}
    (h : Topological (eligiblePrerequisites eligible) done ordered) {b : String} (hb : b ∈ ordered) :
    (eligiblePrerequisites eligible b).isSome = true := by
  obtain ⟨front, back, rfl⟩ := append_of_mem hb
  obtain ⟨nodes, hnext, -⟩ := h.after front b back rfl
  simp [hnext]

variable {initial : BTreeMap String ExclusionReason} {seen : List String} {state : Selection}

/-- What is within reach of an action taken was taken. -/
theorem Chosen.closed (h : Chosen eligible budget initial seen state) {a b : String}
    (ha : a ∈ state.ordered) (hrch : ReflTransGen (Edge (eligiblePrerequisites eligible)) a b) :
    b ∈ state.ordered :=
  (reachable_mem h.topological (fun _ _ hfalse => hfalse.elim) (Or.inr ha) hrch).resolve_left id

variable {a : String}

/-- An action that does not fit still does not after others were taken. -/
theorem TooCostly.after {added : List String} {state' : Selection}
    (h : TooCostly eligible budget state a) (hnd : added.Nodup)
    (hord : state'.ordered = state.ordered ++ added)
    (htot : state'.totalCost = state.totalCost + (added.map (costOf eligible)).sum) :
    TooCostly eligible budget state' a := by
  obtain ⟨closure, hclos, hcost⟩ := h
  refine ⟨closure \ added.toFinset, fun b => ?_, ?_⟩
  · rw [Finset.mem_sdiff, hclos, mem_toFinset, hord, mem_append, not_or, and_assoc]
  · -- what was taken since costs at least what the action no longer needs
    have hspl := Finset.sum_inter_add_sum_sdiff closure added.toFinset (costOf eligible)
    have hinter : ∑ b ∈ closure ∩ added.toFinset, costOf eligible b ≤
        ∑ b ∈ added.toFinset, costOf eligible b :=
      Finset.sum_le_sum_of_subset Finset.inter_subset_right
    have hadded : ∑ b ∈ added.toFinset, costOf eligible b = (added.map (costOf eligible)).sum :=
      sum_toFinset _ hnd
    rw [htot]
    omega

theorem Chosen.unchanged (h : Chosen eligible budget initial seen state) (ha : a ∈ state.ordered) :
    Chosen eligible budget initial (seen ++ [a]) state := by
  refine { h with decided := fun b hb => ?_, untouched := fun b hb => ?_ }
  · rcases mem_append.mp hb with hb | hb
    · exact h.decided b hb
    · rw [mem_singleton.mp hb]
      exact Or.inl ha
  · exact h.untouched b fun hseen => hb (mem_append_left _ hseen)

/-- A candidate is excluded for a good reason. -/
theorem Chosen.exclude (h : Chosen eligible budget initial seen state) {reason : ExclusionReason}
    (hreason : (∃ u, reason = .dependencyUnavailable u ∧
        ¬ Available (eligiblePrerequisites eligible) a) ∨
      ∃ r m, reason = .budgetExceeded r m ∧ Available (eligiblePrerequisites eligible) a ∧
        TooCostly eligible budget state a) :
    Chosen eligible budget initial (seen ++ [a])
      { state with exclusions := state.exclusions.insert a reason } := by
  refine { h with decided := fun b hb => ?_, untouched := fun b hb => ?_ }
  · simp only [get_insert]
    by_cases hab : a = b
    · subst hab
      rw [if_pos rfl]
      obtain ⟨u, rfl, hu⟩ | ⟨r, m, rfl, hrm⟩ := hreason
      · exact Or.inr (Or.inl ⟨u, rfl, hu⟩)
      · exact Or.inr (Or.inr ⟨r, m, rfl, hrm⟩)
    · rw [if_neg hab]
      rcases mem_append.mp hb with hb | hb
      · exact h.decided b hb
      · exact absurd (mem_singleton.mp hb).symm hab
  · rw [mem_append, not_or, mem_singleton] at hb
    simp only [get_insert]
    rw [if_neg (Ne.symm hb.2)]
    exact h.untouched b hb.1

/-- A candidate is taken with what it still needs. -/
theorem Chosen.take (h : Chosen eligible budget initial seen state) {added : List String}
    (htopo : Topological (eligiblePrerequisites eligible) (· ∈ state.selected) added)
    (ha : a ∈ added) (hfits : state.totalCost + (added.map (costOf eligible)).sum ≤ budget) :
    Chosen eligible budget initial (seen ++ [a]) (added.foldl (takeAction eligible) state) := by
  obtain ⟨selected, hselected, hfold⟩ :=
    @foldl_takeAction eligible added state htopo.nodup htopo.fresh
  have hadded : Topological (eligiblePrerequisites eligible) (fun b => False ∨ b ∈ state.ordered)
      added := by
    refine ⟨htopo.nodup, fun b hb hdone => ?_, fun front b back hspl => ?_⟩
    · exact htopo.fresh b hb ((h.selected_iff b).mpr (hdone.resolve_left id))
    · obtain ⟨nodes, hnext, hnod⟩ := htopo.after front b back hspl
      exact ⟨nodes, hnext, fun c hc =>
        (hnod c hc).imp (fun hsel => Or.inr ((h.selected_iff c).mp hsel)) id⟩
  rw [hfold]
  refine ⟨fun b => ?_, h.topological.append hadded, ?_, hfits, fun b hb => ?_, fun b hb => ?_⟩
  · rw [hselected, h.selected_iff, mem_append]
  · simp [h.total]
  · rcases mem_append.mp hb with hb | hb
    · obtain hord | hunav | ⟨r, m, hget, havailable, hcostly⟩ := h.decided b hb
      · exact Or.inl (mem_append_left _ hord)
      · exact Or.inr (Or.inl hunav)
      · exact Or.inr (Or.inr ⟨r, m, hget, havailable, hcostly.after htopo.nodup rfl rfl⟩)
    · rw [mem_singleton.mp hb]
      exact Or.inl (mem_append_right _ ha)
  · exact h.untouched b fun hseen => hb (mem_append_left _ hseen)

/-- One turn of the selection. -/
theorem selectOne_spec (hacyclic : GraphSearch.Acyclic (Edge (eligiblePrerequisites eligible)))
    {fuel : Nat} (hfuel : eligible.size < fuel) (h : Chosen eligible budget initial seen state)
    (a : String) :
    wp (selectOne eligible budget fuel a)
      (fun _ t => Chosen eligible budget initial (seen ++ [a]) t) (fun _ _ => False) False state := by
  have hkeys : ∀ b, (eligiblePrerequisites eligible b).isSome = true →
      b ∈ (eligible.toList.map Prod.fst).toFinset := by
    intro b hb
    obtain ⟨nodes, hnod⟩ := Option.isSome_iff_exists.mp hb
    obtain ⟨candidate, hget, -⟩ := Option.map_eq_some_iff.mp hnod
    exact mem_toFinset.mpr (mem_map.mpr ⟨(b, candidate), mem_toList.mpr hget, rfl⟩)
  have hcard : ((eligible.toList.map Prod.fst).toFinset.filter
      (· ∉ (∅ : BTreeSet String))).card < fuel := by
    refine lt_of_le_of_lt (Finset.card_filter_le _ _) ?_
    rw [toFinset_card_of_nodup (keys_nodup eligible), length_map, Std.ExtTreeMap.length_toList]
    exact hfuel
  have hclosed : ∀ x y, x ∈ state.selected → Edge (eligiblePrerequisites eligible) x y →
      y ∈ state.selected := fun x y hx hedge =>
    (h.selected_iff y).mpr (h.closed ((h.selected_iff x).mp hx) (ReflTransGen.single hedge))
  simp only [selectOne, wp_rules]
  refine ⟨fun hselected => h.unchanged ((h.selected_iff a).mp (by simpa using hselected)), fun hnew => ?_⟩
  rw [wp_locally]
  refine wp_imp (closure_spec hkeys hacyclic fuel a ⟨∅, []⟩ hcard (by simp) .nil) (fun o t ht => ?_)
  cases o with
  | some u =>
    refine h.exclude (Or.inl ⟨u, rfl, fun havailable => ?_⟩)
    have hsome := havailable u ht.2
    rw [ht.1] at hsome
    cases hsome
  | none =>
    obtain ⟨added, hadded, hrch⟩ := ht.added
    have hord : t.ordered = added := hadded
    have ha : a ∈ added := by
      rw [← hord]
      exact (ht.done a (by simp)).resolve_left (by simpa using hnew)
    have htopo := ht.topological
    rw [hord] at htopo
    have hreached : ∀ b, ReflTransGen (Edge (eligiblePrerequisites eligible)) a b →
        b ∈ state.selected ∨ b ∈ added := fun b hb =>
      reachable_mem htopo hclosed (Or.inr ha) hb
    have havailable : Available (eligiblePrerequisites eligible) a := by
      intro b hb
      rcases hreached b hb with hb | hb
      · exact isSome_of_mem h.topological ((h.selected_iff b).mp hb)
      · exact isSome_of_mem htopo hb
    simp only [wp_ite, foldl_cost, Nat.zero_add, hord]
    refine ⟨fun hcost => ?_, fun hcost => ?_⟩
    · refine h.exclude (Or.inr ⟨_, _, rfl, havailable, added.toFinset, fun b => ?_, ?_⟩)
      · rw [mem_toFinset]
        constructor
        · intro hb
          exact ⟨hrch b hb, fun hmem => htopo.fresh b hb ((h.selected_iff b).mpr hmem)⟩
        · rintro ⟨hb, hnot⟩
          exact (hreached b hb).resolve_left fun hsel => hnot ((h.selected_iff b).mp hsel)
      · have hsum : ∑ b ∈ added.toFinset, costOf eligible b = (added.map (costOf eligible)).sum :=
          sum_toFinset _ htopo.nodup
        have hwith := h.within
        omega
    · have hwith := h.within
      exact h.take htopo ha (by omega)

/-- The whole selection. -/
theorem selectEach_spec (hacyclic : GraphSearch.Acyclic (Edge (eligiblePrerequisites eligible)))
    {fuel : Nat} (hfuel : eligible.size < fuel) (ids : List String) :
    wp (DepthFirst.each (selectOne eligible budget fuel) ids)
      (fun _ t => Chosen eligible budget initial ids t) (fun _ _ => False) False
      ⟨∅, [], 0, initial⟩ := by
  refine wp_each (fun seen t => Chosen eligible budget initial seen t) ids [] _
    (fun a _ seen t ht => selectOne_spec hacyclic hfuel ht a) ?_
  exact ⟨by simp, .nil, rfl, Nat.zero_le _, nofun, fun _ _ => rfl⟩

end Selection

end Termivar
