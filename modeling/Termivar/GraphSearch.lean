/-
# Searching a finite graph

A graph is given by the set of successors of each node. `search` is the
queue-driven breadth-first loop: take the next node, stop at the goal, skip
what has been visited, otherwise append the successors not visited yet. The
loop runs on fuel; `search_complete` says how much is enough: one unit for
each queued node and for each edge that leaves an unvisited node (`pending`).

`Acyclic` relations: an edge that closes no walk keeps a relation acyclic
(`Acyclic.insert`).
-/
import Termivar.Collections

namespace Termivar.GraphSearch

open Relation List

variable {α : Type} [Ord α] [Std.TransOrd α] [Std.LawfulEqOrd α] [DecidableEq α]

/-- `b` is a successor of `a`. -/
def Edge (next : α → BTreeSet α) (a b : α) : Prop := b ∈ next a

/-- The goal is found from the queued nodes. -/
def search (next : α → BTreeSet α) (goal : α) : Nat → BTreeSet α → List α → Bool
  | 0, _, _ => false
  | _ + 1, _, [] => false
  | fuel + 1, visited, current :: queue =>
    if current = goal then true
    else if visited.contains current then search next goal fuel visited queue
    else
      let visited := visited.insert current
      search next goal fuel visited
        (queue ++ (next current).toList.filter fun node => !visited.contains node)

variable {next : α → BTreeSet α} {goal : α}

/-! ### What is found can be reached -/

theorem search_sound : ∀ (fuel : Nat) (visited : BTreeSet α) (queue : List α),
    search next goal fuel visited queue = true →
    ∃ node ∈ queue, ReflTransGen (Edge next) node goal := by
  intro fuel
  induction fuel with
  | zero =>
    intro visited queue h
    simp [search] at h
  | succ fuel ih =>
    intro visited queue h
    cases queue with
    | nil => simp [search] at h
    | cons current queue =>
      by_cases hgoal : current = goal
      · exact ⟨current, mem_cons_self, hgoal ▸ ReflTransGen.refl⟩
      by_cases hseen : visited.contains current = true
      · rw [search, if_neg hgoal, if_pos hseen] at h
        obtain ⟨node, hnode, hrch⟩ := ih visited queue h
        exact ⟨node, mem_cons_of_mem _ hnode, hrch⟩
      · rw [search, if_neg hgoal, if_neg hseen] at h
        obtain ⟨node, hnode, hrch⟩ := ih _ _ h
        rcases mem_append.mp hnode with hnode | hnode
        · exact ⟨node, mem_cons_of_mem _ hnode, hrch⟩
        · have hedge : Edge next current node :=
            Std.ExtTreeSet.mem_toList.mp (mem_filter.mp hnode).1
          exact ⟨current, mem_cons_self, ReflTransGen.head hedge hrch⟩

/-! ### What can be reached is found -/

/-- The number of edges that leave unvisited nodes. -/
def pending (nodes : Finset α) (next : α → BTreeSet α) (visited : BTreeSet α) : Nat :=
  ∑ node ∈ nodes with !visited.contains node, (next node).size

/-- A node that is visited no longer has its edges pending. -/
theorem pending_insert {nodes : Finset α} (hnod : ∀ a, a ∉ nodes → next a = ∅)
    {visited : BTreeSet α} {current : α} (hnew : ¬ visited.contains current = true) :
    pending nodes next (visited.insert current) + (next current).size =
      pending nodes next visited := by
  have herase : (nodes.filter fun node => !(visited.insert current).contains node) =
      (nodes.filter fun node => !visited.contains node).erase current := by
    ext node
    have hmem : (visited.insert current).contains node = true ↔
        node = current ∨ visited.contains node = true := mem_insert_iff current node
    simp only [Finset.mem_filter, Finset.mem_erase, Bool.not_eq_true', ← Bool.not_eq_true, hmem,
      not_or]
    tauto
  unfold pending
  rw [herase]
  by_cases hin : current ∈ nodes
  · have hcont : visited.contains current = false := by rwa [← Bool.not_eq_true]
    exact Finset.sum_erase_add _ _ (Finset.mem_filter.mpr ⟨hin, by rw [hcont]; rfl⟩)
  · have hsize : (next current).size = 0 := by rw [hnod current hin]; rfl
    rw [hsize, Nat.add_zero]
    congr 1
    exact Finset.erase_eq_of_notMem fun h => hin (Finset.mem_filter.mp h).1

/-- The successors of the visited nodes are visited or queued. -/
def Closed (next : α → BTreeSet α) (visited : BTreeSet α) (queue : List α) : Prop :=
  ∀ a ∈ visited, ∀ b ∈ next a, b ∈ visited ∨ b ∈ queue

omit [DecidableEq α] in
/-- Visiting a node and queueing its new successors keeps the rest closed. -/
theorem Closed.visit {visited : BTreeSet α} {current : α} {queue : List α}
    (h : Closed next visited (current :: queue)) :
    Closed next (visited.insert current) (queue ++ (next current).toList.filter fun node =>
      !(visited.insert current).contains node) := by
  intro a ha b hb
  by_cases hseen : b ∈ visited.insert current
  · exact Or.inl hseen
  refine Or.inr (mem_append.mpr ?_)
  rcases (mem_insert_iff current a).mp ha with rfl | ha
  · have hcont : (visited.insert a).contains b = false := by
      rw [← Bool.not_eq_true]
      exact hseen
    refine Or.inr (mem_filter.mpr ⟨Std.ExtTreeSet.mem_toList.mpr hb, ?_⟩)
    rw [hcont]
    rfl
  · rcases h a ha b hb with hb | hb
    · exact absurd ((mem_insert_iff current b).mpr (Or.inr hb)) hseen
    · rcases mem_cons.mp hb with rfl | hb
      · exact absurd ((mem_insert_iff b b).mpr (Or.inl rfl)) hseen
      · exact Or.inl hb

omit [Std.LawfulEqOrd α] [DecidableEq α] in
theorem mem_of_closed {visited : BTreeSet α} (h : Closed next visited []) {a b : α}
    (ha : a ∈ visited) (hab : ReflTransGen (Edge next) a b) : b ∈ visited := by
  induction hab with
  | refl => exact ha
  | tail _ hedge ih => exact (h _ ih _ hedge).resolve_right not_mem_nil

theorem search_complete {nodes : Finset α} (hnod : ∀ a, a ∉ nodes → next a = ∅) :
    ∀ (fuel : Nat) (visited : BTreeSet α) (queue : List α),
    queue.length + pending nodes next visited < fuel → goal ∉ visited →
    Closed next visited queue → search next goal fuel visited queue = false →
    ∀ a ∈ visited, ¬ ReflTransGen (Edge next) a goal := by
  intro fuel
  induction fuel with
  | zero =>
    intro visited queue hfuel
    omega
  | succ fuel ih =>
    intro visited queue hfuel hgoal hclosed h a ha hrch
    cases queue with
    | nil => exact hgoal (mem_of_closed hclosed ha hrch)
    | cons current queue =>
      rw [length_cons] at hfuel
      by_cases hcur : current = goal
      · rw [search, if_pos hcur] at h
        cases h
      by_cases hseen : visited.contains current = true
      · rw [search, if_neg hcur, if_pos hseen] at h
        refine ih visited queue (by omega) hgoal (fun x hx y hy => ?_) h a ha hrch
        rcases hclosed x hx y hy with hy | hy
        · exact Or.inl hy
        · rcases mem_cons.mp hy with rfl | hy
          · exact Or.inl hseen
          · exact Or.inr hy
      · rw [search, if_neg hcur, if_neg hseen] at h
        have hpend := pending_insert hnod hseen
        have hlength : ((next current).toList.filter fun node =>
            !(visited.insert current).contains node).length ≤ (next current).size := by
          refine le_trans (length_filter_le _ _) ?_
          rw [Std.ExtTreeSet.length_toList]
        refine ih _ _ ?_ ?_ hclosed.visit h a ((mem_insert_iff current a).mpr (Or.inr ha)) hrch
        · rw [length_append]
          omega
        · intro hmem
          rcases (mem_insert_iff current goal).mp hmem with heq | hmem
          · exact hcur heq.symm
          · exact hgoal hmem

/-- **The search decides reachability.** From the successors of `root`, with
`root` visited, another node is found exactly if a walk leads to it. -/
theorem walk_iff {nodes : Finset α} (hnod : ∀ a, a ∉ nodes → next a = ∅) {root : α}
    (hne : root ≠ goal) {fuel : Nat}
    (hfuel : (next root).size + pending nodes next {root} < fuel) :
    search next goal fuel {root} (next root).toList = true ↔ TransGen (Edge next) root goal := by
  have hroot : ∀ a, a ∈ ({root} : BTreeSet α) ↔ a = root := fun a => by
    show a ∈ (∅ : BTreeSet α).insert root ↔ a = root
    rw [mem_insert_iff]
    simp
  constructor
  · intro h
    obtain ⟨node, hnode, hrch⟩ := search_sound _ _ _ h
    exact TransGen.head' (Std.ExtTreeSet.mem_toList.mp hnode) hrch
  · intro hwalk
    by_contra hfalse
    rw [Bool.not_eq_true] at hfalse
    refine search_complete hnod fuel {root} _ ?_ ?_ ?_ hfalse root ((hroot root).mpr rfl)
      hwalk.to_reflTransGen
    · rw [Std.ExtTreeSet.length_toList]
      exact hfuel
    · intro hmem
      exact hne ((hroot goal).mp hmem).symm
    · intro a ha b hb
      rw [(hroot a).mp ha] at hb
      exact Or.inr (Std.ExtTreeSet.mem_toList.mpr hb)

/-! ### Acyclic relations -/

section Acyclic

variable {β : Type} {r r' : β → β → Prop}

/-- No walk leads back to where it starts. -/
def Acyclic (r : β → β → Prop) : Prop := ∀ a, ¬ TransGen r a a

theorem Acyclic.mono (h : Acyclic r') (hsub : ∀ a b, r a b → r' a b) : Acyclic r :=
  fun a ha => h a (TransGen.mono hsub _ _ ha)

theorem Acyclic.swap (h : Acyclic r) : Acyclic (Function.swap r) := by
  intro a ha
  exact h a (transGen_swap.mp ha)

/-- A walk over one edge more takes the edge or not. -/
theorem walk_insert {source target : β}
    (hsub : ∀ a b, r' a b → r a b ∨ (a = source ∧ b = target)) {a b : β}
    (h : TransGen r' a b) :
    TransGen r a b ∨ (ReflTransGen r a source ∧ ReflTransGen r target b) := by
  induction h with
  | single hab =>
    rcases hsub _ _ hab with hab | ⟨rfl, rfl⟩
    · exact Or.inl (TransGen.single hab)
    · exact Or.inr ⟨ReflTransGen.refl, ReflTransGen.refl⟩
  | tail _ hbc ih =>
    rcases hsub _ _ hbc with hbc | ⟨rfl, rfl⟩
    · rcases ih with ih | ⟨h1, h2⟩
      · exact Or.inl (TransGen.tail ih hbc)
      · exact Or.inr ⟨h1, ReflTransGen.tail h2 hbc⟩
    · rcases ih with ih | ⟨h1, -⟩
      · exact Or.inr ⟨ih.to_reflTransGen, ReflTransGen.refl⟩
      · exact Or.inr ⟨h1, ReflTransGen.refl⟩

/-- An edge whose target does not lead to its source closes no cycle. -/
theorem Acyclic.insert {source target : β} (h : Acyclic r) (hno : ¬ ReflTransGen r target source)
    (hsub : ∀ a b, r' a b → r a b ∨ (a = source ∧ b = target)) : Acyclic r' := by
  intro a ha
  rcases walk_insert hsub ha with hloop | ⟨h1, h2⟩
  · exact h a hloop
  · exact hno (h2.trans h1)

/-- A walk that starts in a closed part of the graph stays in it. -/
theorem walk_stays {old : β → Prop} (hclosed : ∀ a b, old a → r a b → old b)
    (hsub : ∀ a b, old a → r a b → r' a b) {a b : β} (ha : old a) (h : TransGen r a b) :
    old b ∧ TransGen r' a b := by
  induction h with
  | single hab => exact ⟨hclosed _ _ ha hab, TransGen.single (hsub _ _ ha hab)⟩
  | tail _ hbc ih => exact ⟨hclosed _ _ ih.1 hbc, TransGen.tail ih.2 (hsub _ _ ih.1 hbc)⟩

/-- A walk that ends outside a closed part of the graph was never in it. -/
theorem walk_outside {old : β → Prop} {rnew : β → β → Prop} (hclosed : ∀ a b, old a → r a b → old b)
    (hsub : ∀ a b, ¬ old a → ¬ old b → r a b → rnew a b) {a b : β} (hb : ¬ old b)
    (h : TransGen r a b) : ¬ old a ∧ TransGen rnew a b := by
  induction h using TransGen.head_induction_on with
  | single hab =>
    have ha : ¬ old _ := fun ha => hb (hclosed _ _ ha hab)
    exact ⟨ha, TransGen.single (hsub _ _ ha hb hab)⟩
  | head hac _ ih =>
    have ha : ¬ old _ := fun ha => ih.1 (hclosed _ _ ha hac)
    exact ⟨ha, TransGen.head (hsub _ _ ha ih.1 hac) ih.2⟩

/-- A closed part without a cycle, and no cycle outside it. -/
theorem Acyclic.extend (old : β → Prop) {rold rnew : β → β → Prop} (hold : Acyclic rold)
    (hnew : Acyclic rnew) (hclosed : ∀ a b, old a → r a b → old b)
    (hsubOld : ∀ a b, old a → r a b → rold a b)
    (hsubNew : ∀ a b, ¬ old a → ¬ old b → r a b → rnew a b) : Acyclic r := by
  intro a ha
  by_cases hin : old a
  · exact hold a (walk_stays hclosed hsubOld hin ha).2
  · exact hnew a (walk_outside hclosed hsubNew hin ha).2

end Acyclic

end Termivar.GraphSearch
