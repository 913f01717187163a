/-
# Defense removes steps and what needs them

`into_defense_filtered` decides in one pass over the steps of a plan which of
them stay. The steps of a plan come after their prerequisites, so the pass has
seen every prerequisite of a step before the step, and what it keeps is exactly
the steps from which no suppressed step is reached (`Lost`). Filtering is then
the filter of a list, and two filters are one.
-/
import Termivar.Planner.Plan

namespace Termivar

open Command Relation List

variable (steps : List PlanStep)

/-- A step lists a prerequisite. -/
def StepRequires (a b : String) : Prop :=
  ∃ step ∈ steps, step.actionId = a ∧ b ∈ step.prerequisites

/-- A step is suppressed, or needs one that is. -/
def Lost (suppressed : BTreeSet String) (a : String) : Prop :=
  ∃ b ∈ suppressed, ReflTransGen (StepRequires steps) a b

/-- A step at another position. -/
def PlanStep.at (position : Nat) (step : PlanStep) : PlanStep := { step with position }

/-- Steps numbered from zero on, all else unchanged. -/
def renumber : List PlanStep :=
  steps.zipIdx.map fun entry => entry.1.at entry.2

/-- The steps from which no suppressed step is reached. -/
noncomputable def keptSteps (steps : List PlanStep) (suppressed : BTreeSet String) : List PlanStep :=
  open Classical in steps.filter fun step => ¬ Lost steps suppressed step.actionId

/-- The steps come after their prerequisites. -/
def Preceded : Prop :=
  ∀ front step back, steps = front ++ step :: back →
    ∀ p ∈ step.prerequisites, p ∈ front.map PlanStep.actionId

/-- What a plan keeps when steps are removed from it. -/
structure PlanOrdered (planner : AttackPlanner) (plan : AttackPlan) : Prop where
  distinct : plan.stepIds.Nodup
  positions : plan.steps.map PlanStep.position = range plan.steps.length
  preceded : Preceded plan.steps
  excludedDistinct : plan.excludedIds.Nodup
  partition : ∀ id, (∃ action, planner.actions[id]? = some action) ↔
    id ∈ plan.stepIds ∨ id ∈ plan.excludedIds
  disjoint : ∀ id ∈ plan.stepIds, id ∉ plan.excludedIds
  total : plan.totalCost = (plan.steps.map fun step => step.utility.cost.units).sum

theorem PlanSound.ordered {planner : AttackPlanner} {snapshot : KnowledgeSnapshot}
    {context : PlanningContext} {suppressed : BTreeSet String} {plan : AttackPlan}
    (h : PlanSound planner snapshot context suppressed plan) : PlanOrdered planner plan :=
  { h with }

/-! ### Renumbering -/

@[simp] theorem PlanStep.at_actionId (n : Nat) (step : PlanStep) :
    (step.at n).actionId = step.actionId := rfl

@[simp] theorem PlanStep.at_prerequisites (n : Nat) (step : PlanStep) :
    (step.at n).prerequisites = step.prerequisites := rfl

@[simp] theorem PlanStep.at_at (m n : Nat) (step : PlanStep) : (step.at n).at m = step.at m := rfl

theorem PlanStep.at_of_position {n : Nat} {step : PlanStep} (h : step.position = n) :
    step.at n = step := by
  subst h
  rfl

/-- What does not depend on the position is not renumbered. -/
theorem map_renumber {α : Type} (f : PlanStep → α) (hf : ∀ n step, f (step.at n) = f step)
    (steps : List PlanStep) : (renumber steps).map f = steps.map f := by
  unfold renumber
  rw [List.map_map]
  have hcomp : (f ∘ fun entry : PlanStep × Nat => entry.1.at entry.2) = f ∘ Prod.fst :=
    funext fun entry => hf entry.2 entry.1
  rw [hcomp, ← List.map_map, List.zipIdx_map_fst]

theorem renumber_eq_of_map :
    renumber steps = renumber (steps.map (PlanStep.at 0)) := by
  unfold renumber
  rw [List.zipIdx_map, List.map_map]
  rfl

/-- Steps that are at their positions already. -/
theorem renumber_of_positions {steps : List PlanStep}
    (h : steps.map PlanStep.position = range steps.length) : renumber steps = steps := by
  refine ext_getElem (by simp [renumber]) fun i hi hi' => ?_
  have hpos : (steps.map PlanStep.position)[i]? = some i := by
    rw [h, getElem?_range hi']
  rw [getElem?_map, getElem?_eq_getElem hi', Option.map_some, Option.some.injEq] at hpos
  simp only [renumber, getElem_map, getElem_zipIdx, Nat.zero_add]
  exact PlanStep.at_of_position hpos

theorem renumber_positions :
    (renumber steps).map PlanStep.position = List.range (renumber steps).length := by
  unfold renumber
  rw [List.map_map, List.length_map, List.length_zipIdx, List.range_eq_range',
    ← zipIdx_map_snd 0 steps]
  rfl

theorem renumber_concat (step : PlanStep) :
    renumber (steps ++ [step]) = renumber steps ++ [step.at (renumber steps).length] := by
  simp [renumber, zipIdx_append]

/-- Numbers given before a filter do not matter after it. -/
theorem renumber_filter_renumber (p : String → Bool) (steps : List PlanStep) :
    renumber ((renumber steps).filter fun step => p step.actionId) =
      renumber (steps.filter fun step => p step.actionId) := by
  have hmap : ∀ l : List PlanStep, (l.filter fun step => p step.actionId).map (PlanStep.at 0) =
      (l.map (PlanStep.at 0)).filter fun step => p step.actionId := by
    intro l
    rw [filter_map]
    rfl
  rw [renumber_eq_of_map, hmap, map_renumber _ (fun _ _ => rfl), ← hmap, ← renumber_eq_of_map]

/-! ### Reaching a suppressed step -/

section Reach

variable {steps : List PlanStep} {suppressed : BTreeSet String}

variable {a b : String}

theorem Lost.of_mem (h : a ∈ suppressed) : Lost steps suppressed a :=
  ⟨a, h, .refl⟩

theorem Lost.head (hedge : StepRequires steps a b) (h : Lost steps suppressed b) :
    Lost steps suppressed a := by
  obtain ⟨c, hc, hrch⟩ := h
  exact ⟨c, hc, .head hedge hrch⟩

/-- A step is lost if it is suppressed or one of its prerequisites is lost. -/
theorem lost_iff (hdist : (steps.map PlanStep.actionId).Nodup) {step : PlanStep}
    (hstep : step ∈ steps) : Lost steps suppressed step.actionId ↔
      step.actionId ∈ suppressed ∨ ∃ p ∈ step.prerequisites, Lost steps suppressed p := by
  constructor
  · rintro ⟨b, hb, hrch⟩
    rcases hrch.cases_head with rfl | ⟨p, ⟨other, hoth, hid, hp⟩, hrch⟩
    · exact Or.inl hb
    · cases inj_on_of_nodup_map hdist hoth hstep hid
      exact Or.inr ⟨p, hp, b, hb, hrch⟩
  · rintro (hmem | ⟨p, hp, hlost⟩)
    · exact .of_mem hmem
    · exact hlost.head ⟨step, hstep, rfl, hp⟩

/-- Every prerequisite of a step is a step. -/
theorem Preceded.mem (h : Preceded steps) (hedge : StepRequires steps a b) :
    b ∈ steps.map PlanStep.actionId := by
  obtain ⟨step, hstep, -, hb⟩ := hedge
  obtain ⟨front, back, rfl⟩ := append_of_mem hstep
  have hfr := h front step back rfl b hb
  rw [map_append]
  exact mem_append_left _ hfr

/-- What a step reaches is a step. -/
theorem Preceded.reach_mem (h : Preceded steps) (ha : a ∈ steps.map PlanStep.actionId)
    (hrch : ReflTransGen (StepRequires steps) a b) : b ∈ steps.map PlanStep.actionId := by
  rcases hrch.cases_tail with rfl | ⟨c, -, hedge⟩
  · exact ha
  · exact h.mem hedge

/-- Without a suppressed step none is lost. -/
theorem Preceded.not_lost (h : Preceded steps)
    (hnone : ∀ step ∈ steps, step.actionId ∉ suppressed) {step : PlanStep} (hstep : step ∈ steps) :
    ¬ Lost steps suppressed step.actionId := by
  rintro ⟨b, hb, hrch⟩
  obtain ⟨other, hoth, rfl⟩ := mem_map.mp (h.reach_mem (mem_map_of_mem hstep) hrch)
  exact hnone other hoth hb

end Reach

/-! ### The pass over the steps -/

section Pass

variable {steps : List PlanStep} {suppressed : BTreeSet String}

/-- What the pass knows after some of the steps. -/
structure Passed (steps : List PlanStep) (suppressed : BTreeSet String) (seen : List PlanStep)
    (filter : DefenseFilter) : Prop where
  retainedIds : ∀ id, id ∈ filter.retainedIds ↔
    id ∈ seen.map PlanStep.actionId ∧ ¬ Lost steps suppressed id
  retainedSteps : open Classical in filter.retainedSteps =
    renumber (seen.filter fun step => ¬ Lost steps suppressed step.actionId)
  removed : ∀ id, (∃ reason, filter.removed[id]? = some reason) ↔
    id ∈ seen.map PlanStep.actionId ∧ Lost steps suppressed id

/-- One turn of the pass. -/
theorem filterStep_spec (hdist : (steps.map PlanStep.actionId).Nodup) (hprec : Preceded steps)
    {seen : List PlanStep} {step : PlanStep} {rest : List PlanStep}
    (hspl : steps = seen ++ step :: rest) {filter : DefenseFilter}
    (h : Passed steps suppressed seen filter) :
    Passed steps suppressed (seen ++ [step]) (filterStep suppressed filter step) := by
  have hlost := @lost_iff steps suppressed hdist step (by simp [hspl])
  have hnew : step.actionId ∉ seen.map PlanStep.actionId := by
    rw [hspl, map_append, map_cons, nodup_append] at hdist
    exact fun hmem => hdist.2.2 _ hmem _ (by simp) rfl
  have hret : ∀ p ∈ step.prerequisites, p ∉ filter.retainedIds ↔ Lost steps suppressed p := by
    intro p hp
    rw [h.retainedIds, not_and, not_not]
    exact ⟨fun himp => himp (hprec seen step rest hspl p hp), fun hp _ => hp⟩
  have hdrop : Lost steps suppressed step.actionId → ∀ reason, Passed steps suppressed
      (seen ++ [step]) { filter with removed := filter.removed.insert step.actionId reason } := by
    intro hstep reason
    refine ⟨fun id => ?_, ?_, fun id => ?_⟩
    · rw [h.retainedIds, map_append, mem_append, map_singleton, mem_singleton]
      refine and_congr_left fun hid => ⟨Or.inl, fun hmem => hmem.resolve_right ?_⟩
      rintro rfl
      exact hid hstep
    · rw [filter_append, filter_singleton]
      simp [hstep, h.retainedSteps]
    · simp only [get_insert]
      by_cases hid : step.actionId = id
      · subst hid
        simp [hstep]
      · rw [if_neg hid, h.removed, map_append, mem_append, map_singleton, mem_singleton]
        exact and_congr_left fun _ => ⟨Or.inl, fun hmem => hmem.resolve_right (Ne.symm hid)⟩
  have hkept : ¬ Lost steps suppressed step.actionId → Passed steps suppressed (seen ++ [step])
      { filter with
        retainedIds := filter.retainedIds.insert step.actionId
        retainedSteps := filter.retainedSteps ++
          [{ step with position := filter.retainedSteps.length }] } := by
    intro hstep
    refine ⟨fun id => ?_, ?_, fun id => ?_⟩
    · rw [mem_insert_iff, h.retainedIds, map_append, mem_append, map_singleton, mem_singleton]
      constructor
      · rintro (rfl | hid)
        · exact ⟨Or.inr rfl, hstep⟩
        · exact ⟨Or.inl hid.1, hid.2⟩
      · rintro ⟨hid | rfl, hnot⟩
        · exact Or.inr ⟨hid, hnot⟩
        · exact Or.inl rfl
    · rw [filter_append, filter_singleton]
      simp only [hstep, not_false_eq_true, decide_true, cond_true, renumber_concat, h.retainedSteps]
      rfl
    · rw [h.removed, map_append, mem_append, map_singleton, mem_singleton]
      refine and_congr_left fun hid => ⟨Or.inl, fun hmem => hmem.resolve_right ?_⟩
      rintro rfl
      exact hstep hid
  unfold filterStep
  by_cases hmem : step.actionId ∈ suppressed
  · rw [if_pos (by simpa using hmem)]
    exact hdrop (.of_mem hmem) _
  · rw [if_neg (by simpa using hmem)]
    cases hfind : step.prerequisites.toList.find? fun p => !filter.retainedIds.contains p with
    | some p =>
      have hp := mem_of_find?_eq_some hfind
      have hnot := find?_some hfind
      rw [Bool.not_eq_true', ← Bool.not_eq_true, Std.ExtTreeSet.contains_iff_mem] at hnot
      have hp := Std.ExtTreeSet.mem_toList.mp hp
      exact hdrop (hlost.mpr (Or.inr ⟨p, hp, (hret p hp).mp hnot⟩)) _
    | none =>
      refine hkept fun hstep => ?_
      obtain ⟨p, hp, hplost⟩ := (hlost.mp hstep).resolve_left hmem
      have hnot := find?_eq_none.mp hfind p (Std.ExtTreeSet.mem_toList.mpr hp)
      rw [Bool.not_eq_true', ← Bool.not_eq_true, Std.ExtTreeSet.contains_iff_mem] at hnot
      exact hnot ((hret p hp).mpr hplost)

/-- The whole pass. -/
theorem filterSteps_spec (hdist : (steps.map PlanStep.actionId).Nodup) (hprec : Preceded steps) :
    Passed steps suppressed steps (steps.foldl (filterStep suppressed) ⟨∅, [], ∅⟩) := by
  have hrun : ∀ (rest seen : List PlanStep) (filter : DefenseFilter), steps = seen ++ rest →
      Passed steps suppressed seen filter →
      Passed steps suppressed steps (rest.foldl (filterStep suppressed) filter) := by
    intro rest
    induction rest with
    | nil =>
      intro seen filter hspl h
      rw [append_nil] at hspl
      exact hspl ▸ h
    | cons step rest ih =>
      intro seen filter hspl h
      exact ih (seen ++ [step]) _ (by simp [hspl]) (filterStep_spec hdist hprec hspl h)
  exact hrun steps [] _ rfl ⟨by simp, by simp [renumber], by simp⟩

end Pass

/-! ### The filtered plan -/

/-- The keys of a map after further entries. -/
theorem foldl_insert_keys {α : Type} (key : α → String) (reason : α → ExclusionReason) (k : String) :
    ∀ (entries : List α) (m : BTreeMap String ExclusionReason),
      (∃ v, (entries.foldl (fun m entry => m.insert (key entry) (reason entry)) m)[k]? = some v) ↔
        k ∈ entries.map key ∨ ∃ v, m[k]? = some v
  | [], m => by simp
  | entry :: entries, m => by
    rw [foldl_cons, foldl_insert_keys key reason k entries, map_cons, mem_cons]
    simp only [get_insert]
    by_cases hk : key entry = k
    · simp [hk]
    · simp [hk, Ne.symm hk]

theorem keys_iff (m : BTreeMap String ExclusionReason) (k : String) :
    k ∈ m.toList.map Prod.fst ↔ ∃ v, m[k]? = some v := by
  rw [mem_map]
  constructor
  · rintro ⟨⟨k, v⟩, hmem, rfl⟩
    exact ⟨v, mem_toList.mp hmem⟩
  · rintro ⟨v, hget⟩
    exact ⟨(k, v), mem_toList.mpr hget, rfl⟩

section Filtered

variable {planner : AttackPlanner} {plan : AttackPlan}

variable {steps : List PlanStep}

theorem mem_keptSteps {suppressed : BTreeSet String} {step : PlanStep} :
    step ∈ keptSteps steps suppressed ↔ step ∈ steps ∧ ¬ Lost steps suppressed step.actionId := by
  simp [keptSteps]

/-- The plan returned as it is keeps every step. -/
theorem PlanOrdered.keptSteps_eq (h : PlanOrdered planner plan) {suppressed : BTreeSet String}
    (hnone : ∀ step ∈ plan.steps, step.actionId ∉ suppressed) :
    renumber (keptSteps plan.steps suppressed) = plan.steps := by
  have hall : keptSteps plan.steps suppressed = plan.steps :=
    filter_eq_self.mpr fun step hstep => by simp [h.preceded.not_lost hnone hstep]
  rw [hall, renumber_of_positions h.positions]

/-- What the filter comes to, by whichever path. -/
theorem PlanOrdered.intoDefenseFiltered_eq (h : PlanOrdered planner plan)
    (suppressed : BTreeSet String) : ∃ excluded, plan.intoDefenseFiltered suppressed =
      { plan with
        totalCost := ((renumber (keptSteps plan.steps suppressed)).map fun step =>
          step.utility.cost.units).sum
        steps := renumber (keptSteps plan.steps suppressed)
        excluded } ∧
      (excluded.map ExcludedAction.actionId).Nodup ∧
      ∀ id, id ∈ excluded.map ExcludedAction.actionId ↔
        id ∈ plan.excludedIds ∨ id ∈ plan.stepIds ∧ Lost plan.steps suppressed id := by
  by_cases hnone : ∀ step ∈ plan.steps, step.actionId ∉ suppressed
  · -- both early returns: no step is suppressed, so none is lost
    have hsame : plan.intoDefenseFiltered suppressed = plan := by
      unfold AttackPlan.intoDefenseFiltered
      have hany : (!plan.steps.any fun step => suppressed.contains step.actionId) = true := by
        simpa using hnone
      rw [if_pos hany, ite_self]
    refine ⟨plan.excluded, ?_, h.excludedDistinct, fun id => ⟨Or.inl, fun hid => ?_⟩⟩
    · rw [hsame, h.keptSteps_eq hnone, ← h.total]
    · refine hid.resolve_right fun ⟨hstep, hlost⟩ => ?_
      obtain ⟨step, hmem, rfl⟩ := mem_map.mp hstep
      exact h.preceded.not_lost hnone hmem hlost
  · have hpass := @filterSteps_spec plan.steps suppressed h.distinct h.preceded
    have hany : ¬ (!plan.steps.any fun step => suppressed.contains step.actionId) = true := by
      simpa using hnone
    have hnon : ¬ suppressed.isEmpty = true := by
      intro hemp
      push Not at hnone
      obtain ⟨step, -, hmem⟩ := hnone
      rw [Std.ExtTreeSet.isEmpty_iff.mp hemp] at hmem
      exact Std.ExtTreeSet.not_mem_empty hmem
    unfold AttackPlan.intoDefenseFiltered
    rw [if_neg hnon, if_neg hany]
    have hst := hpass.retainedSteps
    refine ⟨_, by simp only [hst]; rfl, ?_, fun id => ?_⟩
    · rw [List.map_map]
      exact keys_nodup _
    · rw [List.map_map]
      refine (keys_iff _ id).trans ?_
      rw [foldl_insert_keys Prod.fst Prod.snd, foldl_insert_keys, keys_iff, hpass.removed]
      simp only [Std.ExtTreeMap.getElem?_empty, reduceCtorEq, exists_false, or_false]
      exact or_comm

theorem PlanOrdered.filtered_steps (h : PlanOrdered planner plan) (suppressed : BTreeSet String) :
    (plan.intoDefenseFiltered suppressed).steps = renumber (keptSteps plan.steps suppressed) := by
  obtain ⟨excluded, heq, -⟩ := h.intoDefenseFiltered_eq suppressed
  rw [heq]

theorem keptSteps_ids (steps : List PlanStep) (suppressed : BTreeSet String) (id : String) :
    id ∈ (renumber (keptSteps steps suppressed)).map PlanStep.actionId ↔
      id ∈ steps.map PlanStep.actionId ∧ ¬ Lost steps suppressed id := by
  rw [map_renumber _ fun _ _ => rfl, mem_map, mem_map]
  constructor
  · rintro ⟨step, hmem, rfl⟩
    exact ⟨⟨step, (mem_keptSteps.mp hmem).1, rfl⟩, (mem_keptSteps.mp hmem).2⟩
  · rintro ⟨⟨step, hmem, rfl⟩, hnot⟩
    exact ⟨step, mem_keptSteps.mpr ⟨hmem, hnot⟩, rfl⟩

/-- Numbers do not matter for what comes first. -/
theorem Preceded.renumber (h : Preceded steps) : Preceded (renumber steps) := by
  intro front step back hspl p hp
  obtain ⟨entries, rest, hents, rfl, hrest⟩ := List.map_eq_append_iff.mp hspl
  obtain ⟨entry, rest, rfl, rfl, rfl⟩ := List.map_eq_cons_iff.mp hrest
  have hst : steps = entries.map Prod.fst ++ entry.1 :: rest.map Prod.fst := by
    rw [← List.zipIdx_map_fst 0 steps, hents, List.map_append, List.map_cons]
  have hmem := h _ _ _ hst p hp
  rw [List.map_map] at hmem ⊢
  exact hmem

/-- The steps that stay come after their prerequisites. -/
theorem Preceded.kept (h : Preceded steps) (suppressed : BTreeSet String) :
    Preceded (keptSteps steps suppressed) := by
  classical
  intro front step back hspl p hp
  have hstep : step ∈ keptSteps steps suppressed := by simp [hspl]
  obtain ⟨before, after, hst, hbef, haft⟩ := filter_eq_append_iff.mp hspl
  obtain ⟨skipped, after, rfl, hskip, -, -⟩ := filter_eq_cons_iff.mp haft
  have hfr := h (before ++ skipped) step after (by simp [hst]) p hp
  obtain ⟨other, hoth, rfl⟩ := mem_map.mp hfr
  -- a step that stays has only prerequisites that stay
  have hkept : ¬ Lost steps suppressed other.actionId := fun hlost =>
    (mem_keptSteps.mp hstep).2 (hlost.head ⟨step, (mem_keptSteps.mp hstep).1, rfl, hp⟩)
  refine mem_map.mpr ⟨other, ?_, rfl⟩
  rcases mem_append.mp hoth with hoth | hoth
  · rw [← hbef]
    exact mem_filter.mpr ⟨hoth, by simpa using hkept⟩
  · exact absurd (by simpa using hkept) (hskip other hoth)

/-- A filtered plan is a plan whose steps are in order. -/
theorem PlanOrdered.filtered (h : PlanOrdered planner plan) (suppressed : BTreeSet String) :
    PlanOrdered planner (plan.intoDefenseFiltered suppressed) := by
  obtain ⟨excluded, heq, hnd, hexcluded⟩ := h.intoDefenseFiltered_eq suppressed
  rw [heq]
  refine ⟨?_, renumber_positions _, (h.preceded.kept suppressed).renumber, hnd, fun id => ?_,
    fun id hid hnot => ?_, rfl⟩
  · rw [AttackPlan.stepIds, map_renumber _ fun _ _ => rfl]
    exact h.distinct.sublist (filter_sublist.map _)
  · rw [h.partition]
    show _ ↔ id ∈ (renumber (keptSteps plan.steps suppressed)).map PlanStep.actionId ∨
      id ∈ excluded.map ExcludedAction.actionId
    rw [keptSteps_ids, hexcluded]
    constructor
    · rintro (hid | hid)
      · by_cases hlost : Lost plan.steps suppressed id
        · exact Or.inr (Or.inr ⟨hid, hlost⟩)
        · exact Or.inl ⟨hid, hlost⟩
      · exact Or.inr (Or.inl hid)
    · rintro (hid | hid | hid)
      · exact Or.inl hid.1
      · exact Or.inr hid
      · exact Or.inl hid.1
  · have hstep := (keptSteps_ids plan.steps suppressed id).mp hid
    rcases (hexcluded id).mp hnot with hmem | hlost
    · exact h.disjoint id hstep.1 hmem
    · exact hstep.2 hlost.2

/-! ### Two filters -/

theorem stepRequires_renumber (steps : List PlanStep) :
    StepRequires (renumber steps) = StepRequires steps := by
  have hprs : (renumber steps).map (fun step => (step.actionId, step.prerequisites)) =
      steps.map fun step => (step.actionId, step.prerequisites) :=
    map_renumber _ (fun _ _ => rfl) steps
  funext a b
  have hiff : ∀ l : List PlanStep, StepRequires l a b ↔
      ∃ entry ∈ l.map (fun step => (step.actionId, step.prerequisites)), entry.1 = a ∧ b ∈ entry.2 := by
    simp [StepRequires]
  rw [hiff, hiff, hprs]

/-- What a step that stays reaches stays, and is reached through what stays. -/
theorem reach_kept {suppressed : BTreeSet String} {a b : String} (ha : ¬ Lost steps suppressed a) :
    ReflTransGen (StepRequires (keptSteps steps suppressed)) a b ↔
      ReflTransGen (StepRequires steps) a b := by
  constructor
  · refine fun hrch => ReflTransGen.mono (fun c d hedge => ?_) _ _ hrch
    obtain ⟨step, hmem, hid, hd⟩ := hedge
    exact ⟨step, (mem_keptSteps.mp hmem).1, hid, hd⟩
  · intro hrch
    induction hrch with
    | refl => exact .refl
    | @tail c d hrch hedge ih =>
      refine ih.tail ?_
      obtain ⟨step, hmem, rfl, hd⟩ := hedge
      refine ⟨step, mem_keptSteps.mpr ⟨hmem, ?_⟩, rfl, hd⟩
      rintro ⟨e, he, hce⟩
      exact ha ⟨e, he, hrch.trans hce⟩

variable {a : String} {D D' : BTreeSet String}

theorem lost_kept (ha : ¬ Lost steps D a) :
    Lost (renumber (keptSteps steps D)) D' a ↔ Lost steps D' a := by
  unfold Lost
  simp only [stepRequires_renumber, reach_kept ha]

theorem lost_union {D D' U : BTreeSet String} (hU : ∀ id, id ∈ U ↔ id ∈ D ∨ id ∈ D') :
    Lost steps U a ↔ Lost steps D a ∨ Lost steps D' a := by
  unfold Lost
  simp only [hU, or_and_right, exists_or]

/-- Filtering twice keeps what filtering once by both keeps. -/
theorem keptSteps_twice (steps : List PlanStep) {D D' U : BTreeSet String}
    (hU : ∀ id, id ∈ U ↔ id ∈ D ∨ id ∈ D') :
    renumber (keptSteps (renumber (keptSteps steps D)) D') = renumber (keptSteps steps U) := by
  classical
  refine (renumber_filter_renumber (fun id => decide ¬ Lost (renumber (keptSteps steps D)) D' id)
    (keptSteps steps D)).trans ?_
  congr 1
  unfold keptSteps
  rw [filter_filter]
  refine filter_congr fun step _ => ?_
  rw [Bool.eq_iff_iff]
  simp only [Bool.and_eq_true, decide_eq_true_eq, lost_union hU, not_or]
  constructor
  · rintro ⟨hD', hD⟩
    exact ⟨hD, fun hlost => hD' ((lost_kept hD).mpr hlost)⟩
  · rintro ⟨hD, hD'⟩
    exact ⟨fun hlost => hD' ((lost_kept hD).mp hlost), hD⟩

theorem Lost.mono (hsub : ∀ id ∈ D, id ∈ D') (h : Lost steps D a) : Lost steps D' a := by
  obtain ⟨b, hb, hrch⟩ := h
  exact ⟨b, hsub b hb, hrch⟩

end Filtered

/-- Every plan of a planner is in order, with or without defense. -/
theorem AttackPlanner.planOrdered {σ : Type} {planner : AttackPlanner} {snapshot : KnowledgeSnapshot}
    {context : PlanningContext} {suppressions : ActionSuppressionContext} {plan : AttackPlan} {s t : σ}
    (h : planner.planSnapshotWithActionSuppressions snapshot context suppressions s = .ok plan t) :
    PlanOrdered planner plan := by
  have hspec : wp (planner.planSnapshotWithActionSuppressions snapshot context suppressions)
      (fun plan _ => PlanOrdered planner plan) (fun _ _ => True) True s := by
    simp only [planSnapshotWithActionSuppressions, planSnapshotWithActionSuppressionsAndBaseline,
      wp_rules]
    exact wp_mono (planSnapshotWithPolicySuppressed_spec s)
      (fun baseline _ hbas => hbas.2.2.2.ordered.filtered _) (fun _ _ _ => trivial)
      fun _ => trivial
  unfold wp at hspec
  rw [h] at hspec
  exact hspec

/-- **Defense only removes, and removes what it must.** Filtering a plan keeps
the steps that reach no suppressed step, renumbered in their order; the steps
and the excluded actions are again the registered ones; filtering twice is
filtering by the union; and a larger set keeps no further step. -/
theorem AttackPlanner.defense_correct {σ : Type} {planner : AttackPlanner}
    {snapshot : KnowledgeSnapshot} {context : PlanningContext}
    {suppressions : ActionSuppressionContext} {plan : AttackPlan} {s t : σ}
    (h : planner.planSnapshotWithActionSuppressions snapshot context suppressions s = .ok plan t)
    (D D' : BTreeSet String) :
    (plan.intoDefenseFiltered D).steps = renumber (keptSteps plan.steps D) ∧
    (plan.intoDefenseFiltered D).subject = plan.subject ∧
    (plan.intoDefenseFiltered D).context = plan.context ∧
    PlanOrdered planner (plan.intoDefenseFiltered D) ∧
    ((plan.intoDefenseFiltered D).intoDefenseFiltered D').steps =
      (plan.intoDefenseFiltered (D ∪ D')).steps ∧
    ((∀ id ∈ D, id ∈ D') → ∀ id ∈ (plan.intoDefenseFiltered D').stepIds,
      id ∈ (plan.intoDefenseFiltered D).stepIds) := by
  have hplan := planOrdered h
  obtain ⟨excluded, heq, -⟩ := hplan.intoDefenseFiltered_eq D
  refine ⟨hplan.filtered_steps D, by rw [heq], by rw [heq], hplan.filtered D, ?_, ?_⟩
  · rw [(hplan.filtered D).filtered_steps, hplan.filtered_steps, hplan.filtered_steps]
    exact keptSteps_twice plan.steps fun id => Std.ExtTreeSet.mem_union_iff
  · intro hsub id hid
    rw [AttackPlan.stepIds, hplan.filtered_steps, keptSteps_ids] at hid ⊢
    exact ⟨hid.1, fun hlost => hid.2 (hlost.mono hsub)⟩

/-- A hypothesis about the framework of a target. -/
def frameworkHypothesis : Hypothesis where
  id := "h1"
  subject := frameworkSnapshot.subject
  predicate := frameworkPredicate
  value := .text "Laravel"
  belief := .new ⟨600000, by decide⟩
  strength := .strong
  state := .supported
  updatedAtMs := 0
  idNotBlank := by decide

/-- An action that follows the hypothesis. -/
def frameworkAction : AttackAction where
  id := "fingerprint"
  executor := "http"
  payloadStrategy := none
  requirements := .all []
  confidenceSource := ⟨frameworkPredicate, .text "Laravel", ⟨520000, by decide⟩, .any⟩
  gain := ⟨5000, by decide⟩
  cost := ⟨4, by decide, by decide⟩
  risk := ⟨100, by decide, by decide⟩
  prerequisites := ∅
  verificationTarget := .motivation
  idNotBlank := .refl false
  executorNotBlank := by decide
  prerequisitesValid := by simp

def frameworkPlanner : AttackPlanner where
  actions := (∅ : BTreeMap String AttackAction).insert "fingerprint" frameworkAction
  keyed := by
    intro id action hget
    rw [get_insert] at hget
    split_ifs at hget with hid
    · cases hget
      exact hid
    · simp at hget

def frameworkContext : PlanningContext :=
  ⟨⟨5000, by decide⟩, 10, ⟨5000, by decide, by decide⟩, 0, by decide⟩

theorem frameworkPlanner_plan : ∃ plan, frameworkPlanner.planSnapshotWithActionSuppressions
    { frameworkSnapshot with hypotheses := [frameworkHypothesis] } frameworkContext
      (.policyOnly ∅) () = .ok plan () ∧ plan.stepIds = ["fingerprint"] := by
  have hrun : (match frameworkPlanner.planSnapshotWithActionSuppressions
      { frameworkSnapshot with hypotheses := [frameworkHypothesis] } frameworkContext
        (.policyOnly ∅) () with
    | .ok plan _ => decide (plan.stepIds = ["fingerprint"])
    | .error _ _ => false
    | .panic => false) = true := by decide +kernel
  split at hrun
  next plan t heq => exact ⟨plan, heq, of_decide_eq_true hrun⟩
  all_goals cases hrun

theorem AttackPlanner.defense_correct_framework : ∃ plan,
    frameworkPlanner.planSnapshotWithActionSuppressions
      { frameworkSnapshot with hypotheses := [frameworkHypothesis] } frameworkContext
        (.policyOnly ∅) () = .ok plan () ∧ plan.stepIds = ["fingerprint"] ∧
    (plan.intoDefenseFiltered ((∅ : BTreeSet String).insert "fingerprint")).stepIds = [] := by
  obtain ⟨plan, hrun, hids⟩ := frameworkPlanner_plan
  refine ⟨plan, hrun, hids, ?_⟩
  rw [AttackPlan.stepIds, (defense_correct hrun _ ∅).1]
  refine List.eq_nil_iff_forall_not_mem.mpr fun id hid => ?_
  rw [keptSteps_ids, ← AttackPlan.stepIds, hids, List.mem_singleton] at hid
  obtain ⟨rfl, hnot⟩ := hid
  exact hnot (.of_mem (by simp))

end Termivar
