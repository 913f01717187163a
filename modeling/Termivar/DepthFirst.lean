/-
# Depth-first search by recursion

Two recursive searches of a graph whose nodes come with an ordered list of
successors. `visit` keeps the path from the root and the finished nodes and
fails at a node that is on the path; on a finite graph it fails exactly if
there is a cycle (`visitEach_spec`). `closure` lists what is reachable from a
node and not selected, every node after its successors, or ends at a node that
is not available (`closure_spec`).

Both recurse with a bound on the depth, and panic at its end; on a finite
graph a bound of one more than the nodes is never met.
-/
import Termivar.Command
import Termivar.GraphSearch

namespace Termivar.DepthFirst

open Command Relation List

variable {N ε σ : Type}

/-- `b` is a successor of `a`. -/
def Edge (next : N → Option (List N)) (a b : N) : Prop := ∃ nodes, next a = some nodes ∧ b ∈ nodes

/-- Each node of a list in turn. -/
def each (f : N → Command σ ε Unit) : List N → Command σ ε Unit
  | [] => return ()
  | node :: rest => do
    f node
    each f rest

/-- Each node of a list in turn, until one gives a result. -/
def untilSome {α : Type} (f : N → Command σ ε (Option α)) : List N → Command σ ε (Option α)
  | [] => return none
  | node :: rest => do
    match ← f node with
    | some result => return some result
    | none => untilSome f rest

section Rules

variable {err : ε → σ → Prop} {pan : Prop}

/-- What is kept from one node of a list to the next. -/
theorem wp_each {f : N → Command σ ε Unit} (I : List N → σ → Prop) :
    ∀ (rest seen : List N) (s : σ),
      (∀ node ∈ rest, ∀ seen s, I seen s → wp (f node) (fun _ t => I (seen ++ [node]) t) err pan s) →
      I seen s → wp (each f rest) (fun _ t => I (seen ++ rest) t) err pan s
  | [], seen, s, _, h => by simpa [each] using h
  | node :: rest, seen, s, hstep, h => by
    obtain ⟨hfirst, hrest⟩ := forall_mem_cons.mp hstep
    rw [each, wp_bind]
    refine wp_imp (hfirst seen s h) fun _ t ht => ?_
    simpa using wp_each I rest (seen ++ [node]) t hrest ht

/-- What is kept while no node gives a result. -/
theorem wp_untilSome {α : Type} {f : N → Command σ ε (Option α)} (I : List N → σ → Prop)
    (found : α → σ → Prop) : ∀ (rest seen : List N) (s : σ), (∀ node ∈ rest, ∀ seen s, I seen s →
        wp (f node) (fun o t => o.elim (I (seen ++ [node]) t) (found · t)) err pan s) →
      I seen s →
      wp (untilSome f rest) (fun o t => o.elim (I (seen ++ rest) t) (found · t)) err pan s
  | [], seen, s, _, h => by simpa [untilSome] using h
  | node :: rest, seen, s, hstep, h => by
    obtain ⟨hfirst, hrest⟩ := forall_mem_cons.mp hstep
    rw [untilSome, wp_bind]
    refine wp_imp (hfirst seen s h) fun o t ht => ?_
    cases o with
    | some result => exact ht
    | none => simpa using wp_untilSome I found rest (seen ++ [node]) t hrest ht

end Rules

/-! ### Looking for a cycle -/

variable [Ord N] [Std.TransOrd N] [Std.LawfulEqOrd N]

/-- The nodes on the path and the finished nodes. -/
structure VisitState (N : Type) [Ord N] where
  (visiting visited : BTreeSet N)

variable (next : N → Option (List N)) (cycle : N → ε)

/-- Visit a node and what is reachable from it. -/
def visit : Nat → N → Command (VisitState N) ε Unit
  | 0, _ => unwind
  | fuel + 1, node => do
    let state ← get
    if state.visited.contains node then return ()
    if state.visiting.contains node then throw (cycle node)
    set { state with visiting := state.visiting.insert node }
    match next node with
    | none => unwind
    | some nodes => do
      each (visit fuel) nodes
      modify fun state =>
        { visiting := state.visiting.erase node, visited := state.visited.insert node }

section Visit

variable {next cycle} {keys : Finset N}

/-- Every walk from the node ends. -/
def Ends (next : N → Option (List N)) (node : N) : Prop := Acc (fun b a => Edge next a b) node

omit [Ord N] [Std.TransOrd N] [Std.LawfulEqOrd N] in
theorem Ends.acyclic {node : N} (h : Ends next node) : ¬ TransGen (Edge next) node node := by
  induction h with
  | intro node _ ih =>
    intro hloop
    obtain ⟨successor, hedge, hback⟩ := TransGen.head'_iff.mp hloop
    exact ih successor hedge (TransGen.trans_right hback (TransGen.single hedge))

/-- What a visit of a node leaves behind. -/
structure Visited (next : N → Option (List N)) (s : VisitState N) (nodes : List N) (t : VisitState N) :
    Prop where
  visiting : t.visiting = s.visiting
  kept : ∀ v ∈ s.visited, v ∈ t.visited
  done : ∀ v ∈ nodes, v ∈ t.visited
  ends : ∀ v ∈ t.visited, Ends next v

theorem erase_insert {t : BTreeSet N} {node : N} (h : node ∉ t) : (t.insert node).erase node = t := by
  refine Std.ExtTreeSet.ext_mem fun v => ?_
  rw [mem_erase_iff, mem_insert_iff]
  constructor
  · rintro ⟨hne, rfl | hv⟩
    · exact absurd rfl hne
    · exact hv
  · intro hv
    exact ⟨fun heq => h (heq ▸ hv), Or.inr hv⟩

/-- A longer path leaves fewer nodes. -/
theorem card_unvisited_lt {t : BTreeSet N} {node : N} (hmem : node ∈ keys) (h : node ∉ t) :
    (keys.filter (· ∉ t.insert node)).card < (keys.filter (· ∉ t)).card := by
  refine Finset.card_lt_card (Finset.ssubset_iff_of_subset ?_ |>.mpr ⟨node, ?_, ?_⟩)
  · intro v hv
    rw [Finset.mem_filter, mem_insert_iff, not_or] at hv
    exact Finset.mem_filter.mpr ⟨hv.1, hv.2.2⟩
  · exact Finset.mem_filter.mpr ⟨hmem, h⟩
  · rw [Finset.mem_filter, mem_insert_iff]
    simp

/-- On a closed graph a visit finishes the node, or it meets a cycle. -/
theorem visit_spec (hclosed : ∀ a ∈ keys, ∃ nodes, next a = some nodes ∧ ∀ b ∈ nodes, b ∈ keys) :
    ∀ (fuel : Nat) (node : N) (s : VisitState N), node ∈ keys →
      (keys.filter (· ∉ s.visiting)).card < fuel →
      (∀ v ∈ s.visiting, TransGen (Edge next) v node) → (∀ v ∈ s.visited, Ends next v) →
      wp (visit next cycle fuel node) (fun _ t => Visited next s [node] t)
        (fun e _ => ∃ b, e = cycle b ∧ TransGen (Edge next) b b) False s
  | 0, _, _, _, hfuel, _, _ => absurd hfuel (Nat.not_lt_zero _)
  | fuel + 1, node, s, hmem, hfuel, hpath, hends => by
    obtain ⟨nodes, hnext, hnod⟩ := hclosed node hmem
    simp only [visit, wp_rules, hnext]
    refine ⟨fun hvisited => ?_, fun hnew => ⟨fun hloop => ?_, fun hfree => ?_⟩⟩
    · refine ⟨rfl, fun v hv => hv, fun v hv => ?_, hends⟩
      rw [mem_singleton.mp hv]
      simpa using hvisited
    · exact ⟨node, rfl, hpath node (by simpa using hloop)⟩
    · have hfree : node ∉ s.visiting := by simpa using hfree
      have hcard := card_unvisited_lt hmem hfree
      -- the node is on the path while its successors are visited
      let I : List N → VisitState N → Prop := fun seen t =>
        Visited next { s with visiting := s.visiting.insert node } seen t
      refine wp_mono (wp_each I nodes [] _ (fun successor hsucc seen t ht => ?_)
        ⟨rfl, fun v hv => hv, nofun, hends⟩) (fun _ t ht => ?_) (fun _ _ he => he) id
      · have hvis : t.visiting = s.visiting.insert node := ht.visiting
        refine wp_imp (visit_spec hclosed fuel successor t (hnod successor hsucc) ?_ ?_ ht.ends)
          (fun _ t' ht' => ?_)
        · rw [hvis]
          omega
        · intro v hv
          rw [hvis, mem_insert_iff] at hv
          rcases hv with rfl | hv
          · exact TransGen.single ⟨nodes, hnext, hsucc⟩
          · exact (hpath v hv).tail ⟨nodes, hnext, hsucc⟩
        · refine ⟨ht'.visiting.trans ht.visiting, fun v hv => ht'.kept v (ht.kept v hv),
            fun v hv => ?_, ht'.ends⟩
          rcases mem_append.mp hv with hv | hv
          · exact ht'.kept v (ht.done v hv)
          · exact ht'.done v hv
      · have hdone : Ends next node := by
          refine Acc.intro node fun b hedge => ?_
          obtain ⟨nodes', hnext', hb⟩ := hedge
          cases hnext.symm.trans hnext'
          exact ht.ends b (ht.done b (by simpa using hb))
        refine ⟨?_, fun v hv => ?_, fun v hv => ?_, fun v hv => ?_⟩
        · have hvis : t.visiting = s.visiting.insert node := ht.visiting
          simp only [hvis, erase_insert hfree]
        · exact (mem_insert_iff _ _).mpr (Or.inr (ht.kept v hv))
        · exact (mem_insert_iff _ _).mpr (Or.inl (mem_singleton.mp hv))
        · rcases (mem_insert_iff _ _).mp hv with rfl | hv
          · exact hdone
          · exact ht.ends v hv

/-- **Visiting every node finds a cycle if there is one.** -/
theorem visitEach_spec (hclosed : ∀ a ∈ keys, ∃ nodes, next a = some nodes ∧ ∀ b ∈ nodes, b ∈ keys)
    {fuel : Nat} (hfuel : keys.card < fuel) {nodes : List N} (hnod : ∀ a ∈ nodes, a ∈ keys) :
    wp (each (visit next cycle fuel) nodes) (fun _ _ => ∀ a ∈ nodes, Ends next a)
      (fun e _ => ∃ b, e = cycle b ∧ TransGen (Edge next) b b) False ⟨∅, ∅⟩ := by
  let I : List N → VisitState N → Prop := fun seen t => Visited next ⟨∅, ∅⟩ seen t
  refine wp_mono (wp_each I nodes [] _ (fun node hnode seen t ht => ?_)
    ⟨rfl, fun v hv => hv, nofun, by simp⟩) (fun _ t ht a ha => ?_) (fun _ _ he => he) id
  · have hvis : t.visiting = ∅ := ht.visiting
    refine wp_imp (visit_spec hclosed fuel node t (hnod node hnode) ?_ ?_ ht.ends)
      (fun _ t' ht' => ?_)
    · exact lt_of_le_of_lt (Finset.card_filter_le _ _) hfuel
    · simp [hvis]
    · refine ⟨ht'.visiting.trans ht.visiting, fun v hv => ht'.kept v (ht.kept v hv),
        fun v hv => ?_, ht'.ends⟩
      rcases mem_append.mp hv with hv | hv
      · exact ht'.kept v (ht.done v hv)
      · exact ht'.done v hv
  · exact ht.ends a (ht.done a (by simpa using ha))

end Visit

/-! ### Listing what is reachable -/

/-- The nodes on the path and the nodes listed so far. -/
structure ClosureState (N : Type) [Ord N] where
  visiting : BTreeSet N
  ordered : List N

variable [DecidableEq N] (selected : BTreeSet N)

/-- List a node after what is reachable from it, or find a node that is not
available. -/
def closure : Nat → N → Command (ClosureState N) ε (Option N)
  | 0, _ => unwind
  | fuel + 1, node => do
    let state ← get
    if selected.contains node || state.ordered.contains node then return none
    match next node with
    | none => return some node
    | some nodes => do
      set { state with visiting := state.visiting.insert node }
      let unavailable ← untilSome (fun successor => do
        if (next successor).isNone then return some successor
        let state ← get
        if state.visiting.contains successor then return none
        closure fuel successor) nodes
      match unavailable with
      | some unavailable => return some unavailable
      | none => do
        modify fun state =>
          { visiting := state.visiting.erase node, ordered := state.ordered ++ [node] }
        return none

section Closure

variable {next selected}

/-- Everything that is reachable from the node is available. -/
def Available (next : N → Option (List N)) (node : N) : Prop :=
  ∀ b, ReflTransGen (Edge next) node b → (next b).isSome = true

/-- The successors of every listed node are done or listed before it. -/
structure Topological (next : N → Option (List N)) (done : N → Prop) (ordered : List N) : Prop where
  nodup : ordered.Nodup
  fresh : ∀ b ∈ ordered, ¬ done b
  after : ∀ front b back, ordered = front ++ b :: back →
    ∃ nodes, next b = some nodes ∧ ∀ c ∈ nodes, done c ∨ c ∈ front

omit [Ord N] [Std.TransOrd N] [Std.LawfulEqOrd N] [DecidableEq N] in
theorem Topological.nil {done : N → Prop} : Topological next done [] where
  nodup := nodup_nil
  fresh := nofun
  after := by simp

omit [Ord N] [Std.TransOrd N] [Std.LawfulEqOrd N] [DecidableEq N] in
/-- One more node, whose successors are done or listed. -/
theorem Topological.concat {done : N → Prop} {ordered nodes : List N} {node : N}
    (h : Topological next done ordered) (hnew : node ∉ ordered) (hfsh : ¬ done node)
    (hnext : next node = some nodes) (hnod : ∀ c ∈ nodes, done c ∨ c ∈ ordered) :
    Topological next done (ordered ++ [node]) where
  nodup := by
    rw [nodup_append]
    exact ⟨h.nodup, nodup_singleton node, fun b hb c hc heq =>
      hnew (mem_singleton.mp hc ▸ heq ▸ hb)⟩
  fresh := by
    intro b hb
    rcases mem_append.mp hb with hb | hb
    · exact h.fresh b hb
    · rw [mem_singleton.mp hb]
      exact hfsh
  after := by
    intro front b back hspl
    rcases eq_nil_or_concat back with rfl | ⟨back', last, rfl⟩
    · obtain ⟨rfl, hb⟩ := append_inj' hspl rfl
      cases hb
      exact ⟨nodes, hnext, hnod⟩
    · rw [concat_eq_append, ← cons_append, ← append_assoc] at hspl
      exact h.after front b back' (append_inj' hspl rfl).1

omit [Ord N] [Std.TransOrd N] [Std.LawfulEqOrd N] [DecidableEq N] in
/-- A list after the nodes it counts as done. -/
theorem Topological.append {done : N → Prop} {ordered added : List N}
    (h : Topological next done ordered)
    (h' : Topological next (fun b => done b ∨ b ∈ ordered) added) :
    Topological next done (ordered ++ added) where
  nodup := by
    rw [nodup_append]
    refine ⟨h.nodup, h'.nodup, fun b hb c hc heq => ?_⟩
    exact h'.fresh c hc (Or.inr (heq ▸ hb))
  fresh := by
    intro b hb
    rcases mem_append.mp hb with hb | hb
    · exact h.fresh b hb
    · exact fun hdone => h'.fresh b hb (Or.inl hdone)
  after := by
    intro front b back hspl
    rcases append_eq_append_iff.mp hspl with ⟨front', hfr, hadded⟩ | ⟨back', hord, hback⟩
    · obtain ⟨nodes, hnext, hnod⟩ := h'.after front' b back hadded
      refine ⟨nodes, hnext, fun c hc => ?_⟩
      rw [hfr, mem_append]
      rcases hnod c hc with (hc | hc) | hc
      · exact Or.inl hc
      · exact Or.inr (Or.inl hc)
      · exact Or.inr (Or.inr hc)
    · cases back' with
      | nil =>
        rw [nil_append] at hback
        rw [append_nil] at hord
        obtain ⟨nodes, hnext, hnod⟩ := h'.after [] b back hback.symm
        refine ⟨nodes, hnext, fun c hc => ?_⟩
        rcases hnod c hc with (hc | hc) | hc
        · exact Or.inl hc
        · exact Or.inr (hord ▸ hc)
        · cases hc
      | cons first back' =>
        cases hback
        exact h.after front b back' hord

omit [Ord N] [Std.TransOrd N] [Std.LawfulEqOrd N] [DecidableEq N] in
/-- What is reachable from a node that is done or listed is done or listed. -/
theorem reachable_mem {done : N → Prop} {ordered : List N} (h : Topological next done ordered)
    (hdone : ∀ a b, done a → Edge next a b → done b) {a b : N} (ha : done a ∨ a ∈ ordered)
    (hrch : ReflTransGen (Edge next) a b) : done b ∨ b ∈ ordered := by
  induction hrch with
  | refl => exact ha
  | @tail b c _ hedge ih =>
    rcases ih with hb | hb
    · exact Or.inl (hdone b c hb hedge)
    · obtain ⟨front, back, rfl⟩ := append_of_mem hb
      obtain ⟨nodes, hnext, hnod⟩ := h.after front b back rfl
      obtain ⟨nodes', hnext', hc⟩ := hedge
      cases hnext.symm.trans hnext'
      rcases hnod c hc with hc | hc
      · exact Or.inl hc
      · exact Or.inr (by simp [hc])

/-- What is listed for some nodes, all of it within reach. -/
structure Listed (next : N → Option (List N)) (selected : BTreeSet N) (s : ClosureState N)
    (reach : N → Prop) (nodes : List N) (t : ClosureState N) : Prop where
  visiting : t.visiting = s.visiting
  added : ∃ added, t.ordered = s.ordered ++ added ∧ ∀ b ∈ added, reach b
  topological : Topological next (· ∈ selected) t.ordered
  done : ∀ v ∈ nodes, v ∈ selected ∨ v ∈ t.ordered

omit [DecidableEq N] [Std.LawfulEqOrd N] in
theorem Listed.mem {s t : ClosureState N} {reach : N → Prop} {b : N} {nodes : List N}
    (h : Listed next selected s reach nodes t) (hb : b ∈ s.ordered) : b ∈ t.ordered := by
  obtain ⟨added, hadded, -⟩ := h.added
  rw [hadded]
  exact mem_append_left _ hb

omit [DecidableEq N] [Std.LawfulEqOrd N] in
/-- One successor of the root after the others. -/
theorem Listed.successor {s t t' : ClosureState N} {root node : N} {seen : List N}
    (h : Listed next selected s (TransGen (Edge next) root) seen t) (hedge : Edge next root node)
    (h' : Listed next selected t (ReflTransGen (Edge next) node) [node] t') :
    Listed next selected s (TransGen (Edge next) root) (seen ++ [node]) t' := by
  obtain ⟨added, hadded, hrch⟩ := h.added
  obtain ⟨added', hadded', hrch'⟩ := h'.added
  refine ⟨h'.visiting.trans h.visiting, ⟨added ++ added', ?_, fun b hb => ?_⟩, h'.topological,
    fun v hv => ?_⟩
  · rw [hadded', hadded, append_assoc]
  · rcases mem_append.mp hb with hb | hb
    · exact hrch b hb
    · exact TransGen.head' hedge (hrch' b hb)
  · rcases mem_append.mp hv with hv | hv
    · exact (h.done v hv).imp id h'.mem
    · exact h'.done v hv

omit [DecidableEq N] in
/-- The root after all its successors. -/
theorem Listed.root {s t : ClosureState N} {root : N} {nodes : List N}
    (h : Listed next selected { s with visiting := s.visiting.insert root }
      (TransGen (Edge next) root) nodes t)
    (hacyclic : GraphSearch.Acyclic (Edge next)) (hfree : root ∉ s.visiting)
    (hnew : root ∉ selected ∧ root ∉ s.ordered) (hnext : next root = some nodes) :
    Listed next selected s (ReflTransGen (Edge next) root) [root]
      { visiting := t.visiting.erase root, ordered := t.ordered ++ [root] } := by
  obtain ⟨added, hadded, hrch⟩ := h.added
  have hvis : t.visiting = s.visiting.insert root := h.visiting
  have hord : t.ordered = s.ordered ++ added := hadded
  have hnot : root ∉ t.ordered := by
    rw [hord, mem_append, not_or]
    exact ⟨hnew.2, fun hmem => hacyclic root (hrch root hmem)⟩
  refine ⟨?_, ⟨added ++ [root], ?_, fun b hb => ?_⟩,
    h.topological.concat hnot hnew.1 hnext h.done, fun v hv => ?_⟩
  · simp only [hvis, erase_insert hfree]
  · simp only [hord, append_assoc]
  · rcases mem_append.mp hb with hb | hb
    · exact (hrch b hb).to_reflTransGen
    · rw [mem_singleton.mp hb]
  · exact Or.inr (mem_append_right _ hv)

/-- **The closure of a node is listed, or something reachable is not available.** -/
theorem closure_spec {keys : Finset N} (hkeys : ∀ a, (next a).isSome = true → a ∈ keys)
    (hacyclic : GraphSearch.Acyclic (Edge next)) : ∀ (fuel : Nat) (node : N) (s : ClosureState N),
      (keys.filter (· ∉ s.visiting)).card < fuel →
      (∀ v ∈ s.visiting, TransGen (Edge next) v node) →
      Topological next (· ∈ selected) s.ordered →
      wp (closure next selected fuel node : Command (ClosureState N) ε (Option N))
        (fun o t => o.elim (Listed next selected s (ReflTransGen (Edge next) node) [node] t)
          fun unavailable =>
            next unavailable = none ∧ ReflTransGen (Edge next) node unavailable)
        (fun _ _ => False) False s
  | 0, _, _, hfuel, _, _ => absurd hfuel (Nat.not_lt_zero _)
  | fuel + 1, node, s, hfuel, hpath, htopo => by
    simp only [closure, wp_rules]
    refine ⟨fun hdone => ?_, fun hnew => ?_⟩
    · refine ⟨rfl, ⟨[], by simp, nofun⟩, htopo, fun v hv => ?_⟩
      rw [mem_singleton.mp hv]
      simpa using hdone
    · have hnew : node ∉ selected ∧ node ∉ s.ordered := by simpa using hnew
      cases hnext : next node with
      | none => exact ⟨hnext, .refl⟩
      | some nodes =>
        have hfree : node ∉ s.visiting := fun hv => hacyclic node (hpath node hv)
        have hcard := card_unvisited_lt (hkeys node (by simp [hnext])) hfree
        simp only [wp_rules]
        -- the node is on the path while its successors are listed
        refine wp_imp (wp_untilSome (fun seen t => Listed next selected
            { s with visiting := s.visiting.insert node } (TransGen (Edge next) node) seen t)
          (fun unavailable _ =>
            next unavailable = none ∧ ReflTransGen (Edge next) node unavailable) nodes [] _
          (fun successor hsucc seen t ht => ?_)
          ⟨rfl, ⟨[], by simp, nofun⟩, htopo, nofun⟩) (fun o t ht => ?_)
        · have hedge : Edge next node successor := ⟨nodes, hnext, hsucc⟩
          have hvis : t.visiting = s.visiting.insert node := ht.visiting
          have hpath' : ∀ v ∈ t.visiting, TransGen (Edge next) v successor := by
            intro v hv
            rw [hvis, mem_insert_iff] at hv
            rcases hv with rfl | hv
            · exact TransGen.single hedge
            · exact (hpath v hv).tail hedge
          simp only [wp_rules]
          refine ⟨fun hnone => ?_, fun hsome => ⟨fun hloop => ?_, fun _ => ?_⟩⟩
          · exact ⟨Option.isNone_iff_eq_none.mp hnone, ReflTransGen.single hedge⟩
          · exact absurd (hpath' successor (by simpa using hloop)) (hacyclic successor)
          · refine wp_imp (closure_spec hkeys hacyclic fuel successor t ?_ hpath' ht.topological)
              (fun o t' ht' => ?_)
            · rw [hvis]
              omega
            · cases o with
              | none => exact ht.successor hedge ht'
              | some unavailable => exact ⟨ht'.1, ht'.2.head hedge⟩
        · cases o with
          | some unavailable => exact ht
          | none => exact ht.root hacyclic hfree hnew hnext

end Closure

end Termivar.DepthFirst
