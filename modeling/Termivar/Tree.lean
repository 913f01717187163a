/-
# Walks over a tree

A walk over a tree with a stack: the node on top is visited and replaced by its
children, the first of them on top, or by none where the walk does not descend.
It visits the nodes in document order (`walk_eq_foldl`, `search_eq_findSome?`).
-/
import Mathlib

namespace Termivar

open List

inductive Tree (α : Type) where
  | node (data : α) (children : List (Tree α))

namespace Tree

variable {α β σ : Type}

def data : Tree α → α
  | node data _ => data

def children : Tree α → List (Tree α)
  | node _ children => children

mutual

def size : Tree α → Nat
  | node _ children => sizes children + 1

def sizes : List (Tree α) → Nat
  | [] => 0
  | tree :: trees => size tree + sizes trees

end

theorem sizes_append : ∀ trees others : List (Tree α),
    sizes (trees ++ others) = sizes trees + sizes others
  | [], others => by simp [sizes]
  | tree :: trees, others => by
    rw [cons_append, sizes, sizes, sizes_append trees others, Nat.add_assoc]

theorem size_eq (tree : Tree α) : tree.size = sizes tree.children + 1 := by
  cases tree
  rw [size, children]

/-- The loop over a stack of pending nodes. -/
def walk (descend : α → Bool) (visit : σ → Tree α → σ) : List (Tree α) → σ → σ
  | [], state => state
  | tree :: rest, state =>
    walk descend visit (if descend tree.data then tree.children ++ rest else rest) (visit state tree)
termination_by pending => sizes pending
decreasing_by
  have hsize := size_eq tree
  rw [sizes]
  split_ifs
  · rw [sizes_append]
    omega
  · omega

/-- The loop that ends with the first node for which there is a result. -/
def search (result : α → Option β) : List (Tree α) → Option β
  | [] => none
  | tree :: rest =>
    match result tree.data with
    | some found => some found
    | none => search result (tree.children ++ rest)
termination_by pending => sizes pending
decreasing_by
  have hsize := size_eq tree
  rw [sizes, sizes_append]
  omega

mutual

/-- The nodes of a tree in document order, without what is below a node that the
walk does not descend into. -/
def visited (descend : α → Bool) : Tree α → List (Tree α)
  | node data children =>
    node data children :: if descend data then visitedAll descend children else []

def visitedAll (descend : α → Bool) : List (Tree α) → List (Tree α)
  | [] => []
  | tree :: trees => visited descend tree ++ visitedAll descend trees

end

/-- All nodes of a tree in document order. -/
def preorder (tree : Tree α) : List (Tree α) := tree.visited fun _ => true

theorem visitedAll_append (descend : α → Bool) : ∀ trees others : List (Tree α),
    visitedAll descend (trees ++ others) = visitedAll descend trees ++ visitedAll descend others
  | [], others => by simp [visitedAll]
  | tree :: trees, others => by
    rw [cons_append, visitedAll, visitedAll, visitedAll_append descend trees others, append_assoc]

theorem visitedAll_singleton (descend : α → Bool) (tree : Tree α) :
    visitedAll descend [tree] = tree.visited descend := by
  rw [visitedAll, visitedAll, append_nil]

theorem visited_eq (descend : α → Bool) (tree : Tree α) : tree.visited descend =
    tree :: if descend tree.data then visitedAll descend tree.children else [] := by
  cases tree
  rw [visited, data, children]

/-- **A walk visits the nodes in document order.** -/
theorem walk_eq_foldl (descend : α → Bool) (visit : σ → Tree α → σ) (pending : List (Tree α))
    (state : σ) : walk descend visit pending state =
      (visitedAll descend pending).foldl visit state := by
  fun_induction walk descend visit pending state with
  | case1 state => simp [visitedAll]
  | case2 tree rest state ih =>
    simp only [dite_eq_ite] at ih
    rw [ih, visitedAll, visited_eq, cons_append, foldl_cons]
    split_ifs
    · rw [visitedAll_append]
    · rw [nil_append]

/-- **A search finds the first node in document order.** -/
theorem search_eq_findSome? (result : α → Option β) (pending : List (Tree α)) :
    search result pending =
      (visitedAll (fun _ => true) pending).findSome? fun tree => result tree.data := by
  fun_induction search result pending with
  | case1 => simp [visitedAll]
  | case2 tree rest found hfnd => simp [visitedAll, visited_eq, hfnd]
  | case3 tree rest hnone ih =>
    rw [ih, visitedAll_append, visitedAll, visited_eq, if_pos rfl, cons_append,
      findSome?_cons, hnone]

end Tree

end Termivar
