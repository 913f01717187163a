/-
# A plan is what the budget allows

Planning fails over its prerequisites exactly if these are not a closed graph
without cycles; otherwise it fails only where the condition of an action does,
and the plan is sound (`PlanSound`): its steps are eligible and come after
their prerequisites, the steps and the excluded actions are the registered
ones, an eligible action is unavailable exactly if it needs one that is not
eligible, and what an action over budget still needs costs more than is left.
-/
import Termivar.Planner.Greedy

namespace Termivar

open Command Relation DepthFirst List

namespace AttackPlanner

/-- An action passes every test of its own. -/
def Eligible (planner : AttackPlanner) (snapshot : KnowledgeSnapshot) (context : PlanningContext)
    (suppressed : BTreeSet String) (id : String) : Prop :=
  ∃ candidate, planner.verdict snapshot context suppressed id = some (.ok (.ok candidate))

/-- The cost of a registered action. -/
def cost (planner : AttackPlanner) (id : String) : Nat :=
  (planner.actions[id]?.map fun action => action.cost.units).getD 0

end AttackPlanner

def AttackPlan.stepIds (plan : AttackPlan) : List String := plan.steps.map PlanStep.actionId

def AttackPlan.excludedIds (plan : AttackPlan) : List String :=
  plan.excluded.map ExcludedAction.actionId

/-- What a plan promises about the actions of its planner. -/
structure PlanSound (planner : AttackPlanner) (snapshot : KnowledgeSnapshot)
    (context : PlanningContext) (suppressed : BTreeSet String) (plan : AttackPlan) : Prop where
  distinct : plan.stepIds.Nodup
  positions : plan.steps.map PlanStep.position = range plan.steps.length
  eligible : ∀ step ∈ plan.steps, ∃ candidate,
    planner.verdict snapshot context suppressed step.actionId = some (.ok (.ok candidate)) ∧
      step = planStep step.position candidate
  preceded : ∀ front step back, plan.steps = front ++ step :: back →
    ∀ p ∈ step.prerequisites, p ∈ front.map PlanStep.actionId
  excludedDistinct : plan.excludedIds.Nodup
  partition : ∀ id, (∃ action, planner.actions[id]? = some action) ↔
    id ∈ plan.stepIds ∨ id ∈ plan.excludedIds
  disjoint : ∀ id ∈ plan.stepIds, id ∉ plan.excludedIds
  total : plan.totalCost = (plan.steps.map fun step => step.utility.cost.units).sum
  within : plan.totalCost ≤ context.budget
  unavailable : ∀ id, planner.Eligible snapshot context suppressed id →
    ((∃ p, ⟨id, .dependencyUnavailable p⟩ ∈ plan.excluded) ↔
      ∃ q, TransGen planner.Requires id q ∧ ¬ planner.Eligible snapshot context suppressed q)
  costly : ∀ id r m, ⟨id, .budgetExceeded r m⟩ ∈ plan.excluded → ∃ closure : Finset String,
    (∀ b, b ∈ closure ↔ ReflTransGen planner.Requires id b ∧ b ∉ plan.stepIds) ∧
      context.budget - plan.totalCost < ∑ b ∈ closure, planner.cost b

/-! ### Excluded actions -/

/-- Every action that was not taken has its reason. -/
theorem excludedActions_eq : ∀ (ids : List String) (exclusions : BTreeMap String ExclusionReason),
    ids.Nodup → (∀ id ∈ ids, ∃ reason, exclusions[id]? = some reason) →
    ∃ excluded, excludedActions ids exclusions = .ok excluded ∧
      excluded.map ExcludedAction.actionId = ids ∧
      ∀ entry ∈ excluded, exclusions[entry.actionId]? = some entry.reason
  | [], _, _, _ => ⟨[], rfl, rfl, nofun⟩
  | id :: ids, exclusions, hnd, hreas => by
    obtain ⟨hnot, hnd⟩ := nodup_cons.mp hnd
    obtain ⟨⟨reason, hreason⟩, hrest⟩ := forall_mem_cons.mp hreas
    have herase : ∀ other ∈ ids, (exclusions.erase id)[other]? = exclusions[other]? := by
      intro other hoth
      have hne : id ≠ other := fun heq => hnot (heq ▸ hoth)
      rw [get_erase, if_neg hne]
    obtain ⟨excluded, hexcluded, hids, hents⟩ := excludedActions_eq ids (exclusions.erase id) hnd
      fun other hoth => by
        rw [herase other hoth]
        exact hrest other hoth
    refine ⟨⟨id, reason⟩ :: excluded, ?_, by simp [hids], ?_⟩
    · simp [excludedActions, hreason, okOr, hexcluded, bind, Except.bind, pure, Except.pure]
    · refine forall_mem_cons.mpr ⟨hreason, fun entry hent => ?_⟩
      have hmem : entry.actionId ∈ ids := hids ▸ mem_map_of_mem hent
      rw [← herase _ hmem]
      exact hents entry hent

/-! ### Steps -/

/-- The steps of eligible actions. -/
theorem planSteps_forall₂ {eligible : BTreeMap String EligibleCandidate} :
    ∀ (ordered : List String) (start : Nat),
      (∀ id ∈ ordered, ∃ candidate, eligible[id]? = some candidate) →
      List.Forall₂ (fun entry step => ∃ candidate, eligible[entry.1]? = some candidate ∧
        step = planStep entry.2 candidate) (ordered.zipIdx start)
        ((ordered.zipIdx start).filterMap fun entry => eligible[entry.1]?.map (planStep entry.2))
  | [], _, _ => .nil
  | id :: ordered, start, h => by
    obtain ⟨⟨candidate, hget⟩, hrest⟩ := forall_mem_cons.mp h
    rw [zipIdx_cons, filterMap_cons]
    simp only [hget, Option.map_some]
    exact .cons ⟨candidate, hget, rfl⟩ (planSteps_forall₂ ordered (start + 1) hrest)

/-- A property of each pair of a list and its steps, read off as a list. -/
theorem map_eq_of_forall₂ {α β γ : Type} {R : α → β → Prop} {f : α → γ} {g : β → γ} {xs : List α}
    {ys : List β} (h : List.Forall₂ R xs ys) (hfg : ∀ x y, R x y → g y = f x) :
    ys.map g = xs.map f := by
  induction h with
  | nil => rfl
  | cons hxy _ ih => rw [map_cons, map_cons, hfg _ _ hxy, ih]

namespace AttackPlanner

variable {planner : AttackPlanner} {snapshot : KnowledgeSnapshot} {context : PlanningContext}
  {suppressed : BTreeSet String} {candidates : Candidates}

variable {id a b : String} {σ : Type}

variable (h : Classified planner snapshot context suppressed candidates)

include h

theorem Classified.eligible_iff : planner.Eligible snapshot context suppressed id ↔
      (eligiblePrerequisites candidates.eligible id).isSome = true := by
  unfold Eligible eligiblePrerequisites
  simp only [Option.isSome_map, Option.isSome_iff_exists, h.eligible]

theorem Classified.action {candidate : EligibleCandidate} (hget : candidates.eligible[id]? = some candidate) :
    planner.actions[id]? = some candidate.action ∧ candidate.action.id = id ∧
      candidate.utility.cost = candidate.action.cost :=
  action_of_verdict ((h.eligible id candidate).mp hget)

theorem Classified.edge_iff : Edge (eligiblePrerequisites candidates.eligible) a b ↔
      planner.Eligible snapshot context suppressed a ∧ planner.Requires a b := by
  constructor
  · rintro ⟨nodes, hnod, hb⟩
    obtain ⟨candidate, hget, rfl⟩ := Option.map_eq_some_iff.mp hnod
    exact ⟨⟨candidate, (h.eligible a candidate).mp hget⟩, candidate.action, (h.action hget).1,
      Std.ExtTreeSet.mem_toList.mp hb⟩
  · rintro ⟨⟨candidate, hverd⟩, action, haction, hb⟩
    have hget := (h.eligible a candidate).mpr hverd
    cases haction.symm.trans (h.action hget).1
    exact ⟨_, by rw [eligiblePrerequisites, hget]; rfl, Std.ExtTreeSet.mem_toList.mpr hb⟩

theorem Classified.acyclic (hacyclic : GraphSearch.Acyclic planner.Requires) :
    GraphSearch.Acyclic (Edge (eligiblePrerequisites candidates.eligible)) :=
  hacyclic.mono fun _ _ hedge => (h.edge_iff.mp hedge).2

theorem Classified.cost_eq (helig : planner.Eligible snapshot context suppressed id) :
    costOf candidates.eligible id = planner.cost id := by
  obtain ⟨candidate, hverd⟩ := helig
  have hget := (h.eligible id candidate).mpr hverd
  simp [costOf, cost, hget, (h.action hget).1]

/-- A walk through prerequisites is one through eligible actions, or meets an
action that is not. -/
theorem Classified.reach_or (hrch : ReflTransGen planner.Requires a b) :
    ReflTransGen (Edge (eligiblePrerequisites candidates.eligible)) a b ∨
      ∃ c, ReflTransGen (Edge (eligiblePrerequisites candidates.eligible)) a c ∧
        ¬ planner.Eligible snapshot context suppressed c := by
  induction hrch with
  | refl => exact Or.inl .refl
  | @tail b c _ hrequires ih =>
    rcases ih with hb | hlost
    · by_cases helig : planner.Eligible snapshot context suppressed b
      · exact Or.inl (hb.tail (h.edge_iff.mpr ⟨helig, hrequires⟩))
      · exact Or.inr ⟨b, hb, helig⟩
    · exact Or.inr hlost

theorem Classified.requires_of_edge (hrch : ReflTransGen (Edge (eligiblePrerequisites candidates.eligible)) a b) :
    ReflTransGen planner.Requires a b :=
  ReflTransGen.mono (fun _ _ hedge => (h.edge_iff.mp hedge).2) _ _ hrch

/-- Everything an eligible action needs is eligible, or a prerequisite of it is not. -/
theorem Classified.available_iff (helig : planner.Eligible snapshot context suppressed a) :
    ¬ Available (eligiblePrerequisites candidates.eligible) a ↔
      ∃ q, TransGen planner.Requires a q ∧ ¬ planner.Eligible snapshot context suppressed q := by
  constructor
  · intro hnot
    unfold Available at hnot
    push Not at hnot
    obtain ⟨q, hrch, hq⟩ := hnot
    rw [ne_eq, ← h.eligible_iff] at hq
    obtain rfl | htrans := reflTransGen_iff_eq_or_transGen.mp (h.requires_of_edge hrch)
    · exact absurd helig hq
    · exact ⟨q, htrans, hq⟩
  · rintro ⟨q, hrch, hq⟩ havailable
    rcases h.reach_or hrch.to_reflTransGen with hedge | ⟨c, hedge, hc⟩
    · exact hq (h.eligible_iff.mpr (havailable q hedge))
    · exact hc (h.eligible_iff.mpr (havailable c hedge))

/-- Where everything is eligible, both graphs reach the same. -/
theorem Classified.reach_iff (havailable : Available (eligiblePrerequisites candidates.eligible) a) :
    ReflTransGen (Edge (eligiblePrerequisites candidates.eligible)) a b ↔
      ReflTransGen planner.Requires a b := by
  refine ⟨h.requires_of_edge, fun hrch => (h.reach_or hrch).resolve_right ?_⟩
  rintro ⟨c, hedge, hc⟩
  exact hc (h.eligible_iff.mpr (havailable c hedge))

theorem Classified.mem_rankedIds : id ∈ rankedIds candidates.eligible ↔
      planner.Eligible snapshot context suppressed id := by
  rw [h.eligible_iff, eligiblePrerequisites, Option.isSome_map, Option.isSome_iff_exists, rankedIds,
    mem_mergeSort, mem_map]
  constructor
  · rintro ⟨⟨id, candidate⟩, hmem, rfl⟩
    exact ⟨candidate, mem_toList.mp hmem⟩
  · rintro ⟨candidate, hget⟩
    exact ⟨(id, candidate), mem_toList.mpr hget, rfl⟩

/-- Why an action was not taken. -/
inductive NotTaken (planner : AttackPlanner) (snapshot : KnowledgeSnapshot)
    (context : PlanningContext) (suppressed : BTreeSet String) (candidates : Candidates)
    (selection : Selection) (id : String) : ExclusionReason → Prop
  | ineligible {reason : ExclusionReason} (hown : ofSelection reason = false)
      (hnot : ¬ planner.Eligible snapshot context suppressed id) :
      NotTaken planner snapshot context suppressed candidates selection id reason
  | unavailable (p : String) (helig : planner.Eligible snapshot context suppressed id)
      (hnot : ¬ Available (eligiblePrerequisites candidates.eligible) id) :
      NotTaken planner snapshot context suppressed candidates selection id (.dependencyUnavailable p)
  | costly (r m : Nat) (helig : planner.Eligible snapshot context suppressed id)
      (havailable : Available (eligiblePrerequisites candidates.eligible) id)
      (hcostly : TooCostly candidates.eligible context.budget selection id) :
      NotTaken planner snapshot context suppressed candidates selection id (.budgetExceeded r m)

variable {selection : Selection}

theorem Classified.notTaken (hcho : Chosen candidates.eligible context.budget candidates.exclusions
      (rankedIds candidates.eligible) selection) (hid : id ∈ planner.ids)
    (hnot : id ∉ selection.ordered) : ∃ reason, selection.exclusions[id]? = some reason ∧
      NotTaken planner snapshot context suppressed candidates selection id reason := by
  by_cases helig : planner.Eligible snapshot context suppressed id
  · obtain hord | ⟨p, hget, hunav⟩ | ⟨r, m, hget, havailable, hcostly⟩ :=
      hcho.decided id (h.mem_rankedIds.mpr helig)
    · exact absurd hord hnot
    · exact ⟨_, hget, .unavailable p helig hunav⟩
    · exact ⟨_, hget, .costly r m helig havailable hcostly⟩
  · obtain ⟨result, hverd⟩ := h.evaluated id hid
    cases result with
    | ok candidate => exact absurd ⟨candidate, hverd⟩ helig
    | error reason =>
      refine ⟨reason, ?_, .ineligible (ofSelection_of_verdict hverd) helig⟩
      rw [hcho.untouched id fun hmem => helig (h.mem_rankedIds.mp hmem)]
      exact (h.exclusions id reason).mpr hverd

/-- The steps of the actions taken. -/
theorem Classified.steps (htaken : ∀ id ∈ selection.ordered, planner.Eligible snapshot context suppressed id) :
    (planSteps candidates.eligible selection.ordered).map PlanStep.actionId = selection.ordered ∧
    (planSteps candidates.eligible selection.ordered).map PlanStep.position =
      range (planSteps candidates.eligible selection.ordered).length ∧
    (planSteps candidates.eligible selection.ordered).map (fun step => step.utility.cost.units) =
      selection.ordered.map (costOf candidates.eligible) ∧
    ∀ step ∈ planSteps candidates.eligible selection.ordered, ∃ candidate,
      candidates.eligible[step.actionId]? = some candidate ∧
        step = planStep step.position candidate := by
  have hall := @planSteps_forall₂ candidates.eligible selection.ordered 0 fun id hid => by
    obtain ⟨candidate, hverd⟩ := htaken id hid
    exact ⟨candidate, (h.eligible id candidate).mpr hverd⟩
  have hlength : selection.ordered.length = (planSteps candidates.eligible selection.ordered).length := by
    have hlength := hall.length_eq
    rw [length_zipIdx] at hlength
    exact hlength
  refine ⟨?_, ?_, ?_, fun step hstep => ?_⟩
  · rw [planSteps, map_eq_of_forall₂ (f := Prod.fst) hall, zipIdx_map_fst]
    rintro entry step ⟨candidate, hget, rfl⟩
    exact (h.action hget).2.1
  · rw [← hlength, planSteps, map_eq_of_forall₂ (f := Prod.snd) hall, zipIdx_map_snd,
      range_eq_range']
    rintro entry step ⟨candidate, hget, rfl⟩
    rfl
  · rw [planSteps, map_eq_of_forall₂ (f := fun entry => costOf candidates.eligible entry.1) hall]
    · rw [← List.zipIdx_map_fst 0 selection.ordered, List.map_map]
      simp [Function.comp_def]
    · rintro entry step ⟨candidate, hget, rfl⟩
      simp [costOf, hget, planStep, (h.action hget).2.2]
  · obtain ⟨entry, -, candidate, hget, rfl⟩ := forall₂_mem_right hall hstep
    refine ⟨candidate, ?_, rfl⟩
    rw [show (planStep entry.2 candidate).actionId = candidate.action.id from rfl, (h.action hget).2.1]
    exact hget

/-- A selection in which every candidate was seen gives a sound plan. -/
theorem Classified.plan_sound (hcho : Chosen candidates.eligible context.budget candidates.exclusions
      (rankedIds candidates.eligible) selection) :
    ∃ excluded, excludedActions (planner.ids.filter fun id => !selection.selected.contains id)
        selection.exclusions = .ok excluded ∧
      PlanSound planner snapshot context suppressed
        { subject := snapshot.subject
          context
          totalCost := selection.totalCost
          steps := planSteps candidates.eligible selection.ordered
          excluded } := by
  have htaken : ∀ id ∈ selection.ordered, planner.Eligible snapshot context suppressed id :=
    fun id hid => h.eligible_iff.mpr (isSome_of_mem hcho.topological hid)
  have hrest : ∀ id, id ∈ (planner.ids.filter fun id => !selection.selected.contains id) ↔
      id ∈ planner.ids ∧ id ∉ selection.ordered := by
    intro id
    rw [mem_filter, ← hcho.selected_iff, Bool.not_eq_true', ← Bool.not_eq_true,
      Std.ExtTreeSet.contains_iff_mem]
  obtain ⟨hids, hpos, hcosts, hst⟩ := h.steps htaken
  obtain ⟨excluded, hexcluded, hexcludedIds, hreas⟩ := excludedActions_eq
    (planner.ids.filter fun id => !selection.selected.contains id) selection.exclusions
    (ids_nodup.filter _) fun id hid => by
      obtain ⟨reason, hget, -⟩ := h.notTaken hcho ((hrest id).mp hid).1 ((hrest id).mp hid).2
      exact ⟨reason, hget⟩
  refine ⟨excluded, hexcluded, ?_⟩
  have hwhy : ∀ id reason, ⟨id, reason⟩ ∈ excluded →
      NotTaken planner snapshot context suppressed candidates selection id reason := by
    intro id reason hmem
    have hid : id ∈ excluded.map ExcludedAction.actionId := mem_map_of_mem hmem
    rw [hexcludedIds, hrest] at hid
    obtain ⟨reason', hget, hnotT⟩ := h.notTaken hcho hid.1 hid.2
    cases (hreas _ hmem).symm.trans hget
    exact hnotT
  have hmiss : ∀ id, id ∈ excluded.map ExcludedAction.actionId ↔
      id ∈ planner.ids ∧ id ∉ selection.ordered := fun id => by rw [hexcludedIds, hrest]
  have hregistered : ∀ id ∈ selection.ordered, id ∈ planner.ids := fun id hid => by
    obtain ⟨candidate, hverd⟩ := htaken id hid
    exact mem_ids.mpr ⟨_, (action_of_verdict hverd).1⟩
  refine ⟨?_, hpos, fun step hstep => ?_, fun front step back hspl p hp => ?_, ?_,
    fun id => ?_, fun id hid hnot => ?_, ?_, hcho.within, fun id helig => ?_,
    fun id r m hmem => ?_⟩
  · rw [AttackPlan.stepIds, hids]
    exact hcho.topological.nodup
  · obtain ⟨candidate, hget, hstep⟩ := hst step hstep
    exact ⟨candidate, (h.eligible _ _).mp hget, hstep⟩
  · replace hspl : planSteps candidates.eligible selection.ordered = front ++ step :: back := hspl
    obtain ⟨candidate, hget, hstep⟩ := hst step (by rw [hspl]; simp)
    have hord : selection.ordered =
        front.map PlanStep.actionId ++ step.actionId :: back.map PlanStep.actionId := by
      rw [← hids, hspl, map_append, map_cons]
    obtain ⟨nodes, hnod, hfr⟩ := hcho.topological.after _ _ _ hord
    rw [eligiblePrerequisites, hget, Option.map_some, Option.some.injEq] at hnod
    subst hnod
    rw [hstep] at hp
    exact (hfr p (Std.ExtTreeSet.mem_toList.mpr hp)).resolve_left id
  · rw [AttackPlan.excludedIds, hexcludedIds]
    exact ids_nodup.filter _
  · rw [← mem_ids, AttackPlan.stepIds, AttackPlan.excludedIds, hids, hmiss]
    constructor
    · intro hid
      by_cases hord : id ∈ selection.ordered
      · exact Or.inl hord
      · exact Or.inr ⟨hid, hord⟩
    · exact Or.rec (hregistered id) And.left
  · rw [AttackPlan.stepIds, hids] at hid
    exact ((hmiss id).mp hnot).2 hid
  · rw [hcho.total, ← hcosts]
  · rw [← h.available_iff helig]
    constructor
    · rintro ⟨p, hmem⟩
      cases hwhy _ _ hmem with
      | ineligible _ hnot => exact absurd helig hnot
      | unavailable _ _ hnot => exact hnot
    · intro hnot
      have hord : id ∉ selection.ordered := fun hid =>
        hnot fun b hrch => isSome_of_mem hcho.topological (hcho.closed hid hrch)
      obtain ⟨candidate, hverd⟩ := helig
      have hid := (hmiss id).mpr ⟨mem_ids.mpr ⟨_, (action_of_verdict hverd).1⟩, hord⟩
      obtain ⟨⟨_, reason⟩, hmem, rfl⟩ := mem_map.mp hid
      cases hwhy _ _ hmem with
      | ineligible _ hinel => exact absurd ⟨candidate, hverd⟩ hinel
      | unavailable p _ _ => exact ⟨p, hmem⟩
      | costly r m _ havailable _ => exact absurd havailable hnot
  · cases hwhy _ _ hmem with
    | ineligible hown _ => cases hown
    | costly _ _ _ havailable hcostly =>
      obtain ⟨closure, hclos, hcost⟩ := hcostly
      refine ⟨closure, fun b => ?_, ?_⟩
      · rw [hclos, h.reach_iff havailable, AttackPlan.stepIds, hids]
      · have hsum : ∑ b ∈ closure, costOf candidates.eligible b = ∑ b ∈ closure, planner.cost b :=
          Finset.sum_congr rfl fun b hb =>
            h.cost_eq (h.eligible_iff.mpr (havailable b ((hclos b).mp hb).1))
        have hwith := hcho.within
        simp only
        omega

/-! ### Planning -/

theorem Classified.size_lt :
    candidates.eligible.size < planner.depth := by
  have hsub : candidates.eligible.toList.map Prod.fst ⊆ planner.ids := by
    intro id hid
    obtain ⟨⟨id, candidate⟩, hmem, rfl⟩ := mem_map.mp hid
    exact mem_ids.mpr ⟨_, (h.action (mem_toList.mp hmem)).1⟩
  have hle := ((keys_nodup candidates.eligible).subperm hsub).length_le
  rw [ids, length_map, length_map, Std.ExtTreeMap.length_toList,
    Std.ExtTreeMap.length_toList] at hle
  exact Nat.lt_succ_of_le hle

omit h

/-- Why planning fails. -/
inductive PlanFails (planner : AttackPlanner) (snapshot : KnowledgeSnapshot)
    (suppressed : BTreeSet String) : PlannerError → Prop
  | unknown (a b : String) (h : ¬ planner.Closed) :
      PlanFails planner snapshot suppressed (.unknownPrerequisite a b)
  | cycle (a : String) (h : ¬ GraphSearch.Acyclic planner.Requires) :
      PlanFails planner snapshot suppressed (.dependencyCycle a)
  | requirement (failure : RuleEngineError) (hclosed : planner.Closed)
      (hacyclic : GraphSearch.Acyclic planner.Requires)
      (h : planner.RequirementFails snapshot suppressed failure) :
      PlanFails planner snapshot suppressed (.rule failure)

/-- Planning fails over the prerequisites or a condition, or its plan is sound. -/
theorem planSnapshotWithPolicySuppressed_spec (s : σ) :
    wp (planner.planSnapshotWithPolicySuppressed snapshot context suppressed)
      (fun plan t => t = s ∧ planner.Closed ∧ GraphSearch.Acyclic planner.Requires ∧
        PlanSound planner snapshot context suppressed plan)
      (fun e t => t = s ∧ PlanFails planner snapshot suppressed e) False s := by
  simp only [planSnapshotWithPolicySuppressed, wp_bind]
  refine wp_mono (validateDependencies_spec s) ?_ ?_ id
  · rintro _ t ⟨rfl, hclosed, hacyclic⟩
    rw [wp_lift]
    refine Checked.wp_mono classify_spec (fun candidates hcands => ?_) ?_
    · rw [wp_locally]
      refine wp_mono (selectEach_spec (hcands.acyclic hacyclic) hcands.size_lt _) ?_ ?_ id
      · rintro _ selection hcho
        obtain ⟨excluded, hexcluded, hsnd⟩ := hcands.plan_sound hcho
        simp only [hexcluded, wp_rules, Checked.wp_ok]
        exact ⟨trivial, hclosed, hacyclic, hsnd⟩
      · exact fun _ _ => False.elim
    · rintro e ⟨failure, rfl, hfls⟩
      exact ⟨rfl, .requirement failure hclosed hacyclic hfls⟩
  · rintro e t ⟨rfl, ⟨a, b, rfl, hclosed⟩ | ⟨a, rfl, hacyclic⟩⟩
    · exact ⟨rfl, .unknown a b hclosed⟩
    · exact ⟨rfl, .cycle a hacyclic⟩

/-- Without defense the policy decides alone. -/
theorem planSnapshotWithSuppressed_eq :
    (planner.planSnapshotWithSuppressed snapshot context suppressed : Command σ PlannerError AttackPlan)
      = planner.planSnapshotWithPolicySuppressed snapshot context suppressed := by
  have hemp : ∀ plan : AttackPlan, plan.intoDefenseFiltered ∅ = plan := fun plan => by
    simp [AttackPlan.intoDefenseFiltered]
  simp [planSnapshotWithSuppressed, planSnapshotWithActionSuppressions,
    planSnapshotWithActionSuppressionsAndBaseline, ActionSuppressionContext.policyOnly, hemp]

/-- What a run of the planner comes to. -/
theorem planSnapshotWithSuppressed_cases (planner : AttackPlanner)
    (snapshot : KnowledgeSnapshot) (context : PlanningContext) (suppressed : BTreeSet String) (s : σ) :
    (∃ plan, planner.planSnapshotWithSuppressed snapshot context suppressed s = .ok plan s ∧
      planner.Closed ∧ GraphSearch.Acyclic planner.Requires ∧
      PlanSound planner snapshot context suppressed plan) ∨
    ∃ e, planner.planSnapshotWithSuppressed snapshot context suppressed s = .error e s ∧
      PlanFails planner snapshot suppressed e := by
  have hspec := @planSnapshotWithPolicySuppressed_spec planner snapshot context suppressed σ s
  rw [planSnapshotWithSuppressed_eq]
  unfold wp at hspec
  split at hspec
  next plan t hrun =>
    obtain ⟨rfl, hplan⟩ := hspec
    exact Or.inl ⟨plan, hrun, hplan⟩
  next e t hrun =>
    obtain ⟨rfl, hfls⟩ := hspec
    exact Or.inr ⟨e, hrun, hfls⟩
  next => exact hspec.elim

/-- **A plan is what the budget allows.** Planning fails over its prerequisites
exactly if these are not closed or have a cycle. Otherwise it fails only where
the condition of an action does, and a run without such a failure gives a sound
plan. -/
theorem plan_correct {σ : Type} (planner : AttackPlanner) (snapshot : KnowledgeSnapshot)
    (context : PlanningContext) (suppressed : BTreeSet String) (s : σ) :
    (((∃ a b, planner.planSnapshotWithSuppressed snapshot context suppressed s =
          .error (.unknownPrerequisite a b) s) ∨
        ∃ a, planner.planSnapshotWithSuppressed snapshot context suppressed s =
          .error (.dependencyCycle a) s) ↔
      ¬ (planner.Closed ∧ GraphSearch.Acyclic planner.Requires)) ∧
    ((planner.Closed ∧ GraphSearch.Acyclic planner.Requires) →
      (∃ failure, planner.RequirementFails snapshot suppressed failure ∧
        planner.planSnapshotWithSuppressed snapshot context suppressed s =
          .error (.rule failure) s) ∨
      ∃ plan, planner.planSnapshotWithSuppressed snapshot context suppressed s = .ok plan s ∧
        PlanSound planner snapshot context suppressed plan) := by
  rcases planSnapshotWithSuppressed_cases planner snapshot context suppressed s with
    ⟨plan, hrun, hclosed, hacyclic, hsnd⟩ | ⟨e, hrun, hfls⟩
  · rw [hrun]
    refine ⟨⟨?_, fun hnot => absurd ⟨hclosed, hacyclic⟩ hnot⟩, fun _ => Or.inr ⟨plan, rfl, hsnd⟩⟩
    rintro (⟨a, b, herr⟩ | ⟨a, herr⟩)
    · cases herr
    · cases herr
  · rw [hrun]
    cases hfls with
    | unknown a b hclosed =>
      exact ⟨⟨fun _ h => hclosed h.1, fun _ => Or.inl ⟨a, b, rfl⟩⟩, fun h => absurd h.1 hclosed⟩
    | cycle a hacyclic =>
      exact ⟨⟨fun _ h => hacyclic h.2, fun _ => Or.inr ⟨a, rfl⟩⟩, fun h => absurd h.2 hacyclic⟩
    | requirement failure hclosed hacyclic hreq =>
      refine ⟨⟨?_, fun hnot => absurd ⟨hclosed, hacyclic⟩ hnot⟩,
        fun _ => Or.inl ⟨failure, hreq, rfl⟩⟩
      rintro (⟨a, b, herr⟩ | ⟨a, herr⟩)
      · cases herr
      · cases herr

end AttackPlanner

end Termivar
