/-
# Finding a cycle by depth-first search

Iterative three-colour depth-first search with an explicit stack of nodes and
the index of the next neighbor of each. A node is white before it is found,
gray while it is on the stack, black once all its neighbors are black; a gray
neighbor closes a cycle. If the search ends without one, every walk from a
node of the graph ends (`detect_spec`), so the graph has no cycle.
-/
import Termivar.GraphSearch
import Termivar.Loop

namespace Termivar.CycleSearch

open Command List Option

inductive Color where
  | white
  | gray
  | black
  deriving DecidableEq

variable {N σ ε : Type} [Ord N] [Std.TransOrd N] [Std.LawfulEqOrd N]

/-- The colours, and the stack with its top first. -/
structure SearchState (N : Type) [Ord N] where
  color : BTreeMap N Color
  stack : List (N × Nat)

variable (adjacency : BTreeMap N (List N)) (cycle : N → ε)

/-- `adjacency[&node]`. -/
def neighborsOf (node : N) : Command (SearchState N) ε (List N) :=
  match adjacency[node]? with
  | some neighbors => return neighbors
  | none => unwind

/-- What the search does with the next neighbor of the node on top. -/
def visitNeighbor (next : N) : Command (SearchState N) ε (Option Unit) := do
  let state ← get
  match state.color[next]? with
  | some .gray => throw (cycle next)
  | some .white => do
    set { state with color := state.color.insert next .gray, stack := (next, 0) :: state.stack }
    return none
  | _ => return none

/-- One turn of the search; it returns when the stack is empty. -/
def searchTurn : Command (SearchState N) ε (Option Unit) := do
  let state ← get
  match state.stack with
  | [] => return some ()
  | (node, position) :: below => do
    let neighbors ← neighborsOf adjacency node
    match neighbors[position]? with
    | some next => do
      set { state with stack := (node, position + 1) :: below }
      visitNeighbor cycle next
    | none => do
      set { state with color := state.color.insert node .black, stack := below }
      return none

/-! ### The search ends -/

/-- The neighbors of the stack still to visit, and one turn to leave each node. -/
def stackWork : List (N × Nat) → Nat
  | [] => 0
  | (node, position) :: below => ((adjacency[node]?.getD []).length - position) + 1 + stackWork below

/-- No node has more neighbors. -/
def degree : Nat := (adjacency.toList.map fun entry => entry.2.length).foldr max 0

/-- A white node may still come with as many neighbors as any node has. -/
def searchWork (state : SearchState N) : Nat :=
  (countOf state.color fun _ c => c = .white) * (degree adjacency + 2) +
    stackWork adjacency state.stack

theorem length_le_degree (node : N) : (adjacency[node]?.getD []).length ≤ degree adjacency := by
  have hmax : ∀ (lengths : List Nat) (n : Nat), n ∈ lengths → n ≤ lengths.foldr max 0 := by
    intro lengths
    induction lengths with
    | nil => simp
    | cons first rest ih =>
      intro n hn
      rcases mem_cons.mp hn with rfl | hn
      · exact le_max_left _ _
      · exact le_trans (ih n hn) (le_max_right _ _)
  cases hget : adjacency[node]? with
  | none => simp
  | some neighbors =>
    exact hmax _ _ (mem_map.mpr ⟨(node, neighbors), mem_toList.mpr hget, rfl⟩)

theorem countOf_insert_le (color : BTreeMap N Color) (node : N) :
    (countOf (color.insert node .black) fun _ c => c = .white) ≤
      countOf color fun _ c => c = .white := by
  cases hget : color[node]? with
  | none =>
    rw [countOf_insert_new _ _ hget]
    simp
  | some c =>
    have hcnt := countOf_insert_old (fun _ c => decide (c = Color.white)) .black hget
    simp only [reduceCtorEq, decide_false, Bool.toNat_false, Nat.add_zero] at hcnt
    omega

theorem searchTurn_decreases {state after : SearchState N}
    (h : searchTurn adjacency cycle state = .ok none after) :
    searchWork adjacency after < searchWork adjacency state := by
  have hturn : wp (searchTurn adjacency cycle)
      (fun o t => o = none → searchWork adjacency t < searchWork adjacency state)
      (fun _ _ => True) True state := by
    rcases state with ⟨color, _ | ⟨⟨node, position⟩, below⟩⟩
    · simp [searchTurn]
    simp only [searchTurn, wp_rules, neighborsOf]
    cases hget : adjacency[node]? with
    | none => trivial
    | some neighbors =>
      simp only [wp_pure]
      cases hnext : neighbors[position]? with
      | none =>
        have hle : position ≥ neighbors.length := getElem?_eq_none_iff.mp hnext
        have hcnt := countOf_insert_le color node
        simp only [wp_rules, forall_const]
        unfold searchWork
        simp only [stackWork]
        have hmul := Nat.mul_le_mul_right (degree adjacency + 2) hcnt
        omega
      | some next =>
        have hlt : position < neighbors.length := (List.getElem?_eq_some_iff.mp hnext).1
        simp only [visitNeighbor, wp_rules]
        cases hcolor : color[next]? with
        | none =>
          simp only [wp_pure, forall_const]
          unfold searchWork
          simp only [stackWork, hget, getD_some]
          omega
        | some c =>
          cases c with
          | gray => trivial
          | black =>
            simp only [wp_pure, forall_const]
            unfold searchWork
            simp only [stackWork, hget, getD_some]
            omega
          | white =>
            simp only [wp_rules, forall_const]
            have hcnt := countOf_insert_old (fun _ c => decide (c = Color.white)) .gray hcolor
            have hdegree := length_le_degree adjacency next
            unfold searchWork
            simp only [stackWork, hget, getD_some]
            simp only [decide_true, Bool.toNat_true, reduceCtorEq, decide_false, Bool.toNat_false,
              Nat.add_zero] at hcnt
            rw [← hcnt, Nat.add_mul]
            omega
  rw [wp_of_eq_ok h] at hturn
  exact hturn rfl

/-! ### The search -/

/-- Search from a start that was not found yet. -/
def searchFrom (start : N) : Command (SearchState N) ε Unit := do
  let state ← get
  if state.color[start]? ≠ some .white then return ()
  set { state with color := state.color.insert start .gray, stack := [(start, 0)] }
  loop (searchTurn adjacency cycle) (searchWork adjacency) (searchTurn_decreases adjacency cycle)

def searchEach : List N → Command (SearchState N) ε Unit
  | [] => return ()
  | start :: rest => do
    searchFrom adjacency cycle start
    searchEach rest

/-- Search from every node, all white at first. -/
def detect (nodes : List N) : Command σ ε Unit := do
  let start : SearchState N :=
    { color := nodes.foldl (fun color node => color.insert node .white) ∅, stack := [] }
  let _ ← locally start (searchEach adjacency cycle nodes)
  return ()

/-! ### What the search finds -/

/-- `b` is a neighbor of `a`. -/
def Neighbor (a b : N) : Prop := ∃ neighbors, adjacency[a]? = some neighbors ∧ b ∈ neighbors

/-- Every walk from the node ends. -/
def Ends (node : N) : Prop := Acc (fun b a => Neighbor adjacency a b) node

/-- The neighbors before the position of a node are black, but for the node
above it on the stack. -/
def Explored (color : BTreeMap N Color) : Option N → List (N × Nat) → Prop
  | _, [] => True
  | above, (node, position) :: below =>
    (∀ neighbors, adjacency[node]? = some neighbors → ∀ (i : Nat) (next : N), i < position →
      neighbors[i]? = some next → color[next]? = some .black ∨ some next = above) ∧
    Explored color (some node) below

structure SearchInvariant (found : List N) (state : SearchState N) : Prop where
  colored : ∀ node : N, adjacency[node]?.isSome → state.color[node]?.isSome
  ends : ∀ node : N, state.color[node]? = some .black → Ends adjacency node
  gray : ∀ node : N, state.color[node]? = some .gray → ∃ position, (node, position) ∈ state.stack
  found_colored : ∀ node ∈ found, state.color[node]? ≠ some .white
  stack_nodes : ∀ entry ∈ state.stack, adjacency[entry.1]?.isSome
  explored : Explored adjacency state.color none state.stack

omit [Std.LawfulEqOrd N] in
theorem Explored.mono {color color' : BTreeMap N Color}
    (hblack : ∀ node : N, color[node]? = some .black → color'[node]? = some .black) :
    ∀ {above : Option N} {stack : List (N × Nat)}, Explored adjacency color above stack →
      Explored adjacency color' above stack
  | _, [], _ => trivial
  | above, (node, position) :: below, h => by
    refine ⟨fun neighbors hget i next hi hnext => ?_, Explored.mono hblack h.2⟩
    rcases h.1 neighbors hget i next hi hnext with hb | ha
    · exact Or.inl (hblack next hb)
    · exact Or.inr ha

variable {color : BTreeMap N Color} {position : Nat} {below : List (N × Nat)}

omit [Std.LawfulEqOrd N] in
/-- The node above turned black. -/
theorem Explored.settle {above : N} (hblack : color[above]? = some .black) {stack : List (N × Nat)}
    (h : Explored adjacency color (some above) stack) : Explored adjacency color none stack := by
  cases stack with
  | nil => trivial
  | cons entry below =>
    refine ⟨fun neighbors hget i next hi hnext => ?_, h.2⟩
    rcases h.1 neighbors hget i next hi hnext with hb | ha
    · exact Or.inl hb
    · rw [some.injEq] at ha
      exact Or.inl (ha ▸ hblack)

theorem get_color {color : BTreeMap N Color} {node other : N} {c d : Color} :
    (color.insert node c)[other]? = some d ↔
      (node = other ∧ c = d) ∨ (node ≠ other ∧ color[other]? = some d) := by
  classical
  rw [get_insert]
  by_cases h : node = other <;> simp [h]

theorem isSome_insert {color : BTreeMap N Color} {node other : N} {c : Color}
    (h : color[other]?.isSome) : (color.insert node c)[other]?.isSome := by
  classical
  rw [get_insert]
  split_ifs
  · rfl
  · exact h

theorem color_of_insert {color : BTreeMap N Color} {node other : N} {c d : Color}
    (h : (color.insert node c)[other]? = some d) (hne : c ≠ d) : color[other]? = some d := by
  rcases get_color.mp h with ⟨-, hc⟩ | ⟨-, hold⟩
  · exact absurd hc hne
  · exact hold

variable {adjacency cycle} {found : List N}

/-- A white neighbor is put on the stack. -/
theorem SearchInvariant.push {node next : N} {neighbors : List N}
    (h : SearchInvariant adjacency found ⟨color, (node, position) :: below⟩)
    (hget : adjacency[node]? = some neighbors) (hnext : neighbors[position]? = some next)
    (hcolor : color[next]? = some .white) (hnode : adjacency[next]?.isSome) :
    SearchInvariant adjacency found
      ⟨color.insert next .gray, (next, 0) :: (node, position + 1) :: below⟩ := by
  have hblack : ∀ other : N, color[other]? = some .black →
      (color.insert next .gray)[other]? = some .black := by
    intro other hoth
    refine get_color.mpr (Or.inr ⟨fun heq => ?_, hoth⟩)
    rw [← heq, hcolor] at hoth
    cases hoth
  refine
    { colored := fun other hoth => isSome_insert (h.colored other hoth)
      ends := fun other hoth => h.ends other (color_of_insert hoth nofun)
      gray := fun other hoth => ?_
      found_colored := fun other hmem hoth => h.found_colored other hmem (color_of_insert hoth nofun)
      stack_nodes := fun entry hent => ?_
      explored := ⟨fun _ _ i _ hi => absurd hi (Nat.not_lt_zero i), ?_, ?_⟩ }
  · rcases get_color.mp hoth with ⟨rfl, -⟩ | ⟨-, hold⟩
    · exact ⟨0, mem_cons_self⟩
    · obtain ⟨i, hi⟩ := h.gray other hold
      rcases mem_cons.mp hi with heq | hbel
      · have hoth : other = node := congrArg Prod.fst heq
        exact ⟨position + 1, by simp [hoth]⟩
      · exact ⟨i, mem_cons_of_mem _ (mem_cons_of_mem _ hbel)⟩
  · rcases mem_cons.mp hent with rfl | hent
    · exact hnode
    · rcases mem_cons.mp hent with rfl | hbel
      · exact h.stack_nodes (node, position) mem_cons_self
      · exact h.stack_nodes entry (mem_cons_of_mem _ hbel)
  · intro others hoths i other hi hoth
    rw [hget, some.injEq] at hoths
    subst hoths
    rcases Nat.lt_succ_iff_lt_or_eq.mp hi with hlt | rfl
    · rcases h.explored.1 neighbors hget i other hlt hoth with hb | ha
      · exact Or.inl (hblack other hb)
      · cases ha
    · rw [hnext] at hoth
      exact Or.inr hoth.symm
  · exact Explored.mono adjacency hblack h.explored.2

omit [Std.LawfulEqOrd N] in
/-- A black neighbor is passed. -/
theorem SearchInvariant.pass {node next : N} {neighbors : List N}
    (h : SearchInvariant adjacency found ⟨color, (node, position) :: below⟩)
    (hget : adjacency[node]? = some neighbors) (hnext : neighbors[position]? = some next)
    (hcolor : color[next]? = some .black) :
    SearchInvariant adjacency found ⟨color, (node, position + 1) :: below⟩ := by
  refine
    { colored := h.colored
      ends := h.ends
      gray := fun other hoth => ?_
      found_colored := h.found_colored
      stack_nodes := fun entry hent => ?_
      explored := ⟨?_, h.explored.2⟩ }
  · obtain ⟨i, hi⟩ := h.gray other hoth
    rcases mem_cons.mp hi with heq | hbel
    · have hoth : other = node := congrArg Prod.fst heq
      exact ⟨position + 1, by simp [hoth]⟩
    · exact ⟨i, mem_cons_of_mem _ hbel⟩
  · rcases mem_cons.mp hent with rfl | hbel
    · exact h.stack_nodes (node, position) mem_cons_self
    · exact h.stack_nodes entry (mem_cons_of_mem _ hbel)
  · intro others hoths i other hi hoth
    rw [hget, some.injEq] at hoths
    subst hoths
    rcases Nat.lt_succ_iff_lt_or_eq.mp hi with hlt | rfl
    · exact h.explored.1 neighbors hget i other hlt hoth
    · rw [hnext, some.injEq] at hoth
      exact Or.inl (hoth ▸ hcolor)

/-- A node with no neighbor left turns black: every walk from it ends, since
every walk from its neighbors does. -/
theorem SearchInvariant.pop {node : N} {neighbors : List N}
    (h : SearchInvariant adjacency found ⟨color, (node, position) :: below⟩)
    (hget : adjacency[node]? = some neighbors) (hdone : neighbors[position]? = none) :
    SearchInvariant adjacency found ⟨color.insert node .black, below⟩ := by
  have hends : Ends adjacency node := by
    refine Acc.intro node fun next hnext => ?_
    obtain ⟨others, hoths, hmem⟩ := hnext
    rw [hget, some.injEq] at hoths
    subst hoths
    obtain ⟨i, hi, hival⟩ := getElem_of_mem hmem
    have hlt : i < position := lt_of_lt_of_le hi (getElem?_eq_none_iff.mp hdone)
    have hsome : neighbors[i]? = some next := by rw [getElem?_eq_getElem hi, hival]
    rcases h.explored.1 neighbors hget i next hlt hsome with hb | ha
    · exact h.ends next hb
    · cases ha
  have hblack : ∀ other : N, color[other]? = some .black →
      (color.insert node .black)[other]? = some .black := by
    intro other hoth
    rw [get_color]
    by_cases heq : node = other
    · exact Or.inl ⟨heq, rfl⟩
    · exact Or.inr ⟨heq, hoth⟩
  refine
    { colored := fun other hoth => isSome_insert (h.colored other hoth)
      ends := fun other hoth => ?_
      gray := fun other hoth => ?_
      found_colored := fun other hmem hoth => h.found_colored other hmem (color_of_insert hoth nofun)
      stack_nodes := fun entry hent => h.stack_nodes entry (mem_cons_of_mem _ hent)
      explored := ?_ }
  · rcases get_color.mp hoth with ⟨rfl, -⟩ | ⟨-, hold⟩
    · exact hends
    · exact h.ends other hold
  · rcases get_color.mp hoth with ⟨-, hc⟩ | ⟨hne, hold⟩
    · cases hc
    · obtain ⟨i, hi⟩ := h.gray other hold
      rcases mem_cons.mp hi with heq | hbel
      · exact absurd (congrArg Prod.fst heq).symm hne
      · exact ⟨i, hbel⟩
  · exact Explored.settle adjacency (get_color.mpr (Or.inl ⟨rfl, rfl⟩))
      (Explored.mono adjacency hblack h.explored.2)

/-- One turn keeps the invariant, or finds a cycle. -/
theorem searchTurn_spec (hclosed : ∀ a b : N, Neighbor adjacency a b → adjacency[b]?.isSome)
    (state : SearchState N) (h : SearchInvariant adjacency found state) :
    wp (searchTurn adjacency cycle) (fun o after => o.elim (SearchInvariant adjacency found after)
        (fun _ => SearchInvariant adjacency found after ∧ after.stack = []))
      (fun _ _ => True) False state := by
  rcases state with ⟨color, _ | ⟨⟨node, position⟩, below⟩⟩
  · exact ⟨h, rfl⟩
  obtain ⟨neighbors, hget⟩ := isSome_iff_exists.mp (h.stack_nodes (node, position) mem_cons_self)
  simp only [searchTurn, wp_rules, neighborsOf, hget]
  cases hnext : neighbors[position]? with
  | none => exact h.pop hget hnext
  | some next =>
    have hnode := hclosed node next ⟨neighbors, hget, mem_of_getElem? hnext⟩
    obtain ⟨c, hcolor⟩ := isSome_iff_exists.mp (h.colored next hnode)
    simp only at hcolor
    simp only [visitNeighbor, wp_rules, hcolor]
    cases c with
    | gray => trivial
    | white => exact h.push hget hnext hcolor hnode
    | black => exact h.pass hget hnext hcolor

/-- A search from a start leaves it found, and the stack empty. -/
theorem searchFrom_spec (hclosed : ∀ a b : N, Neighbor adjacency a b → adjacency[b]?.isSome)
    {start : N} (hsta : adjacency[start]?.isSome) {state : SearchState N}
    (h : SearchInvariant adjacency found state) (hemp : state.stack = []) :
    wp (searchFrom adjacency cycle start)
      (fun _ after => SearchInvariant adjacency (start :: found) after ∧ after.stack = [])
      (fun _ _ => True) False state := by
  simp only [searchFrom, wp_rules]
  refine ⟨fun hcolor => ⟨?_, hemp⟩, fun hcolor => ?_⟩
  · exact
      { colored := h.colored, ends := h.ends, gray := h.gray
        found_colored := forall_mem_cons.mpr ⟨hcolor, h.found_colored⟩
        stack_nodes := h.stack_nodes, explored := h.explored }
  · have hwhite : state.color[start]? = some .white := not_not.mp hcolor
    refine wp_loop (I := SearchInvariant adjacency (start :: found)) (searchTurn_spec hclosed) _ ?_
    refine
      { colored := fun other hoth => isSome_insert (h.colored other hoth)
        ends := fun other hoth => h.ends other (color_of_insert hoth (by simp))
        gray := fun other hoth => ?_
        found_colored := fun other hmem hoth => ?_
        stack_nodes := fun entry hent => ?_
        explored := ⟨fun _ _ i _ hi => absurd hi (Nat.not_lt_zero i), trivial⟩ }
    · rcases get_color.mp hoth with ⟨rfl, -⟩ | ⟨-, hold⟩
      · exact ⟨0, mem_cons_self⟩
      · obtain ⟨i, hi⟩ := h.gray other hold
        rw [hemp] at hi
        cases hi
    · rcases get_color.mp hoth with ⟨-, hc⟩ | ⟨hne, hold⟩
      · cases hc
      · rcases mem_cons.mp hmem with heq | hmem
        · exact hne heq.symm
        · exact h.found_colored other hmem hold
    · rw [mem_singleton.mp hent]
      exact hsta

theorem searchEach_spec (hclosed : ∀ a b : N, Neighbor adjacency a b → adjacency[b]?.isSome) :
    ∀ {starts found : List N} {state : SearchState N}, (∀ node ∈ starts, adjacency[node]?.isSome) →
      SearchInvariant adjacency found state → state.stack = [] →
      wp (searchEach adjacency cycle starts)
        (fun _ after => ∃ all, (∀ node ∈ starts, node ∈ all) ∧ (∀ node ∈ found, node ∈ all) ∧
          SearchInvariant adjacency all after ∧ after.stack = [])
        (fun _ _ => True) False state
  | [], found, state, _, h, hemp => ⟨found, by simp, fun _ hmem => hmem, h, hemp⟩
  | start :: rest, found, state, hstarts, h, hemp => by
    rw [searchEach, wp_bind]
    refine wp_mono (searchFrom_spec hclosed (hstarts start mem_cons_self) h hemp)
      (fun _ after haft => ?_) (fun _ _ _ => trivial) id
    refine wp_mono (searchEach_spec hclosed (fun node hmem => hstarts node (mem_cons_of_mem _ hmem))
      haft.1 haft.2) (fun _ final hfinal => ?_) (fun _ _ _ => trivial) id
    obtain ⟨all, hrest, hfnd, hinv, hstack⟩ := hfinal
    refine ⟨all, fun node hmem => ?_, fun node hmem => hfnd node (mem_cons_of_mem _ hmem), hinv,
      hstack⟩
    rcases mem_cons.mp hmem with rfl | hmem
    · exact hfnd node mem_cons_self
    · exact hrest node hmem

theorem get_foldl_white (nodes : List N) : ∀ (color : BTreeMap N Color) (node : N) (c : Color),
    (nodes.foldl (fun color node => color.insert node .white) color)[node]? = some c ↔
      (node ∈ nodes ∧ c = .white) ∨ (node ∉ nodes ∧ color[node]? = some c) := by
  classical
  induction nodes with
  | nil => simp
  | cons first rest ih =>
    intro color node c
    rw [foldl_cons, ih, get_color]
    by_cases hfirst : first = node
    · by_cases hmem : node ∈ rest <;> simp [hfirst, hmem, eq_comm]
    · by_cases hmem : node ∈ rest <;> simp [hfirst, Ne.symm hfirst, hmem]

/-- **The search finds every cycle.** On a graph whose nodes are the ones
searched, it never panics, and if it ends without an error every walk from
every node ends. -/
theorem detect_spec {nodes : List N} {s : σ}
    (hnod : ∀ node : N, node ∈ nodes ↔ adjacency[node]?.isSome)
    (hclosed : ∀ a b : N, Neighbor adjacency a b → adjacency[b]?.isSome) :
    wp (detect adjacency cycle nodes) (fun _ t => t = s ∧ ∀ node, Ends adjacency node)
      (fun _ t => t = s) False s := by
  have hsta : SearchInvariant adjacency []
      ⟨nodes.foldl (fun color node => color.insert node .white) ∅, []⟩ := by
    refine
      { colored := fun node hnode => ?_
        ends := fun node hnode => ?_
        gray := fun node hnode => ?_
        found_colored := by simp
        stack_nodes := by simp
        explored := trivial }
    · rw [isSome_iff_exists]
      exact ⟨.white, (get_foldl_white _ _ _ _).mpr (Or.inl ⟨(hnod node).mpr hnode, rfl⟩)⟩
    · rcases (get_foldl_white _ _ _ _).mp hnode with ⟨-, hc⟩ | ⟨-, hc⟩
      · cases hc
      · simp at hc
    · rcases (get_foldl_white _ _ _ _).mp hnode with ⟨-, hc⟩ | ⟨-, hc⟩
      · cases hc
      · simp at hc
  simp only [detect, wp_rules, wp_locally]
  refine wp_mono (searchEach_spec hclosed (fun node hmem => (hnod node).mp hmem) hsta rfl)
    (fun _ final hfinal => ?_) (fun _ _ _ => trivial) id
  obtain ⟨all, hall, -, hinv, hstack⟩ := hfinal
  refine ⟨trivial, fun node => ?_⟩
  by_cases hnode : adjacency[node]?.isSome
  · obtain ⟨c, hc⟩ := isSome_iff_exists.mp (hinv.colored node hnode)
    cases c with
    | white => exact absurd hc (hinv.found_colored node (hall node ((hnod node).mpr hnode)))
    | gray =>
      obtain ⟨i, hi⟩ := hinv.gray node hc
      rw [hstack] at hi
      cases hi
    | black => exact hinv.ends node hc
  · refine Acc.intro node fun next hnext => ?_
    obtain ⟨neighbors, hget, -⟩ := hnext
    rw [hget] at hnode
    exact absurd rfl hnode

omit [Std.LawfulEqOrd N] in
/-- Where every walk ends there is no cycle. -/
theorem acyclic_of_ends (h : ∀ node, Ends adjacency node) :
    GraphSearch.Acyclic (Neighbor adjacency) := by
  intro node hcycle
  have hwf : WellFounded (Relation.TransGen fun b a => Neighbor adjacency a b) :=
    WellFounded.transGen ⟨h⟩
  exact hwf.irrefl.irrefl node (Relation.transGen_swap.mpr hcycle)

end Termivar.CycleSearch
