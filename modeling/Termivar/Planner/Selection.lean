/-
# Selecting the actions of a plan

`termivar-scanner/src/planner/selection.rs` and `into_defense_filtered` of
`model.rs`: the planner checks the prerequisites of its actions, evaluates
every action, and takes the eligible ones in the order of their utility, each
with the prerequisites that are not yet taken, while the budget lasts. The
recursions carry a bound on their depth.
-/
import Termivar.DepthFirst
import Termivar.Planner.Model
import Termivar.Sorting

namespace Termivar

open Command

/-- Deterministic utility planner for declarative attack actions. -/
structure AttackPlanner where
  actions : BTreeMap String AttackAction
  keyed : ∀ (id : String) (action : AttackAction), actions[id]? = some action → action.id = id

namespace AttackPlanner

variable {σ : Type}

variable (planner : AttackPlanner)

/-- The identifiers of the actions in their order. -/
def ids : List String := planner.actions.toList.map Prod.fst

/-- The prerequisites of a registered action in their order. -/
def prerequisitesOf (actionId : String) : Option (List String) :=
  planner.actions[actionId]?.map fun action => action.prerequisites.toList

/-! ### Prerequisites -/

/-- The first action with an unknown prerequisite, and the prerequisite. -/
def unknownPrerequisite : Option (String × String) :=
  planner.actions.toList.findSome? fun entry =>
    (entry.2.prerequisites.toList.find? fun prerequisite =>
      !planner.actions.contains prerequisite).map fun prerequisite => (entry.2.id, prerequisite)

def visitDependency (fuel : Nat) (actionId : String) :
    Command (DepthFirst.VisitState String) PlannerError Unit :=
  DepthFirst.visit planner.prerequisitesOf .dependencyCycle fuel actionId

/-- No recursion is deeper than there are actions. -/
def depth : Nat := planner.actions.size + 1

def validateDependencies : Command σ PlannerError Unit := do
  match planner.unknownPrerequisite with
  | some (actionId, prerequisite) => throw (.unknownPrerequisite actionId prerequisite)
  | none => do
    let _ ← locally ⟨∅, ∅⟩ (DepthFirst.each (planner.visitDependency planner.depth) planner.ids)
    return ()

/-! ### Candidates -/

/-- The eligible actions and the reasons against the others. -/
structure Candidates where
  eligible : BTreeMap String EligibleCandidate
  exclusions : BTreeMap String ExclusionReason

def policySuppression (suppressed : BTreeSet String) (actionId : String) : Option ExclusionReason :=
  if suppressed.contains actionId then some .policySuppressed else none

def classifyOne (snapshot : KnowledgeSnapshot) (context : PlanningContext)
    (suppressed : BTreeSet String) (candidates : Candidates) (action : AttackAction) :
    Except PlannerError Candidates := do
  match ← evaluateCandidate action snapshot context (policySuppression suppressed action.id) with
  | .ok candidate =>
    return { candidates with eligible := candidates.eligible.insert action.id candidate }
  | .error reason =>
    return { candidates with exclusions := candidates.exclusions.insert action.id reason }

def classify (snapshot : KnowledgeSnapshot) (context : PlanningContext)
    (suppressed : BTreeSet String) : Except PlannerError Candidates :=
  (planner.actions.toList.map Prod.snd).foldlM (classifyOne snapshot context suppressed) ⟨∅, ∅⟩

end AttackPlanner

/-! ### Selection -/

variable (eligible : BTreeMap String EligibleCandidate) (actionId : String)

/-- The prerequisites of an eligible action. -/
def eligiblePrerequisites :
    Option (List String) :=
  eligible[actionId]?.map fun candidate => candidate.action.prerequisites.toList

def buildEligibleClosure (selected : BTreeSet String)
    (fuel : Nat) (actionId : String) :
    Command (DepthFirst.ClosureState String) PlannerError (Option String) :=
  DepthFirst.closure (eligiblePrerequisites eligible) selected fuel actionId

/-- The cost of an eligible action. -/
def costOf : Nat :=
  (eligible[actionId]?.map fun candidate => candidate.action.cost.units).getD 0

/-- The order of the candidates: by utility, falling, then by identifier. -/
def compareRanked : String → String → Ordering :=
  let score := fun id => (eligible[id]?.map fun candidate => candidate.utility.score).getD 0
  compareLex (fun left right => compareOn score right left) compare

def rankedIds : List String :=
  (eligible.toList.map Prod.fst).mergeSort fun left right => (compareRanked eligible left right).isLE

/-- The actions taken so far. -/
structure Selection where
  selected : BTreeSet String
  ordered : List String
  totalCost : Nat
  exclusions : BTreeMap String ExclusionReason

/-- Take one action, if it is not taken. -/
def takeAction (state : Selection) (actionId : String) :
    Selection :=
  if state.selected.contains actionId then state
  else
    { state with
      selected := state.selected.insert actionId
      totalCost := state.totalCost + costOf eligible actionId
      ordered := state.ordered ++ [actionId] }

def exclude (reason : ExclusionReason) : Command Selection PlannerError Unit :=
  modify fun state => { state with exclusions := state.exclusions.insert actionId reason }

/-- One turn of the selection. -/
def selectOne (budget fuel : Nat) (actionId : String) :
    Command Selection PlannerError Unit := do
  let state ← get
  if state.selected.contains actionId then return ()
  let (unavailable, closure) ←
    locally ⟨∅, []⟩ (buildEligibleClosure eligible state.selected fuel actionId)
  match unavailable with
  | some prerequisite => exclude actionId (.dependencyUnavailable prerequisite)
  | none => do
    let required := closure.ordered.foldl (fun sum id => sum + costOf eligible id) 0
    let remaining := budget - state.totalCost
    if remaining < required then exclude actionId (.budgetExceeded required remaining)
    else set (closure.ordered.foldl (takeAction eligible) state)

/-- The steps of the actions taken, in their order. -/
def planSteps (ordered : List String) :
    List PlanStep :=
  ordered.zipIdx.filterMap fun entry => eligible[entry.1]?.map (planStep entry.2)

/-- The reasons against the actions that were not taken. -/
def excludedActions : List String → BTreeMap String ExclusionReason →
    Except PlannerError (List ExcludedAction)
  | [], _ => return []
  | actionId :: rest, exclusions => do
    let reason ← okOr exclusions[actionId]? (.incompleteDecision actionId)
    let excluded ← excludedActions rest (exclusions.erase actionId)
    return { actionId, reason } :: excluded

namespace AttackPlanner

variable {σ : Type}

def planSnapshotWithPolicySuppressed (planner : AttackPlanner) (snapshot : KnowledgeSnapshot)
    (context : PlanningContext) (suppressed : BTreeSet String) : Command σ PlannerError AttackPlan := do
  planner.validateDependencies
  let candidates ← planner.classify snapshot context suppressed
  let (_, selection) ← locally ⟨∅, [], 0, candidates.exclusions⟩
    (DepthFirst.each (selectOne candidates.eligible context.budget planner.depth)
      (rankedIds candidates.eligible))
  let excluded ← excludedActions (planner.ids.filter fun id => !selection.selected.contains id)
    selection.exclusions
  return { subject := snapshot.subject
           context
           totalCost := selection.totalCost
           steps := planSteps candidates.eligible selection.ordered
           excluded }

end AttackPlanner

/-! ### Defense -/

/-- The steps of a plan while some are removed. -/
structure DefenseFilter where
  retainedIds : BTreeSet String
  retainedSteps : List PlanStep
  removed : BTreeMap String ExclusionReason

/-- One step is kept, or removed for itself or for a prerequisite. -/
def filterStep (defenseSuppressed : BTreeSet String) (filter : DefenseFilter) (step : PlanStep) :
    DefenseFilter :=
  let reason :=
    if defenseSuppressed.contains step.actionId then some .defenseSuppressed
    else (step.prerequisites.toList.find? fun prerequisite =>
      !filter.retainedIds.contains prerequisite).map ExclusionReason.dependencyUnavailable
  match reason with
  | some reason => { filter with removed := filter.removed.insert step.actionId reason }
  | none =>
    { filter with
      retainedIds := filter.retainedIds.insert step.actionId
      retainedSteps := filter.retainedSteps ++
        [{ step with position := filter.retainedSteps.length }] }

/-- Removes defense-suppressed steps from this already-authorized plan. -/
def AttackPlan.intoDefenseFiltered (plan : AttackPlan) (defenseSuppressed : BTreeSet String) :
    AttackPlan :=
  if defenseSuppressed.isEmpty then plan
  else if !plan.steps.any fun step => defenseSuppressed.contains step.actionId then plan
  else
    let filter := plan.steps.foldl (filterStep defenseSuppressed) ⟨∅, [], ∅⟩
    let excluded : BTreeMap String ExclusionReason := plan.excluded.foldl
      (fun excluded entry => excluded.insert entry.actionId entry.reason) ∅
    let merged := filter.removed.toList.foldl
      (fun excluded entry => excluded.insert entry.1 entry.2) excluded
    { plan with
      totalCost := (filter.retainedSteps.map fun step => step.utility.cost.units).sum
      steps := filter.retainedSteps
      excluded := merged.toList.map fun entry => { actionId := entry.1, reason := entry.2 } }

/-- The actions that policy and defense suppress. -/
structure ActionSuppressionContext where
  (policySuppressedActions defenseSuppressedActions : BTreeSet String)

def ActionSuppressionContext.policyOnly (suppressed : BTreeSet String) : ActionSuppressionContext :=
  ⟨suppressed, ∅⟩

namespace AttackPlanner

variable {σ : Type}

variable (planner : AttackPlanner)

def planSnapshotWithActionSuppressionsAndBaseline (snapshot : KnowledgeSnapshot)
    (context : PlanningContext)
    (suppressions : ActionSuppressionContext) :
    Command σ PlannerError (AttackPlan × AttackPlan) := do
  let baseline ← planner.planSnapshotWithPolicySuppressed snapshot context
    suppressions.policySuppressedActions
  return (baseline, baseline.intoDefenseFiltered suppressions.defenseSuppressedActions)

def planSnapshotWithActionSuppressions (snapshot : KnowledgeSnapshot)
    (context : PlanningContext) (suppressions : ActionSuppressionContext) :
    Command σ PlannerError AttackPlan := do
  let plans ← planner.planSnapshotWithActionSuppressionsAndBaseline snapshot context suppressions
  return plans.2

/-- Produces a plan from a snapshot and an explicit policy suppression set. -/
def planSnapshotWithSuppressed (snapshot : KnowledgeSnapshot)
    (context : PlanningContext) (suppressed : BTreeSet String) : Command σ PlannerError AttackPlan :=
  planner.planSnapshotWithActionSuppressions snapshot context (.policyOnly suppressed)

end AttackPlanner

end Termivar
