/-
# Pages of an ordered list

Identifiers in strictly ascending order are read page by page: each page starts
after the last identifier of the page before it, and tells whether more follow.
Whatever the sizes of the pages, as long as each is positive, following them
ends, and the pages together are all identifiers from the start on, each once.
-/
import Termivar.Collections

namespace Termivar.Paging

open List

variable {K : Type} [Ord K]

/-- The identifiers after a position; all of them where there is none. -/
def after (position : Option K) (ids : List K) : List K :=
  ids.filter fun id => position.all fun start => compare start id = .lt

/-- At most `limit` identifiers after a position, and whether more follow. -/
def page (position : Option K) (limit : Nat) (ids : List K) : List K × Bool :=
  ((after position ids).take limit, !((after position ids).drop limit).isEmpty)

/-- Pages that follow each other, from a position and with the limits of the
turns, until none follows. -/
inductive Walk (ids : List K) (limits : Nat → Nat) : Nat → Option K → List (List K) → Prop where
  | last {turn : Nat} {position : Option K} {scanned : List K}
      (hpage : page position (limits turn) ids = (scanned, false)) :
    Walk ids limits turn position [scanned]
  | next {turn : Nat} {position : Option K} {scanned : List K} {lastId : K} {pages : List (List K)}
      (hpage : page position (limits turn) ids = (scanned, true)) (hlast : scanned.getLast? = some lastId)
      (hrest : Walk ids limits (turn + 1) (some lastId) pages) :
    Walk ids limits turn position (scanned :: pages)

/-- In ascending order, without repetition. -/
def Ascending (ids : List K) : Prop := ids.Pairwise fun left right => compare left right = .lt

theorem after_none (ids : List K) : after none ids = ids := by
  simp [after]

variable [Std.TransOrd K]

/-- What follows an identifier that is itself after a position. -/
theorem after_last {ids front back : List K} {position : Option K} {id : K} (h : Ascending ids)
    (haft : after position ids = front ++ id :: back) : after (some id) ids = back := by
  have hid : position.all fun start => compare start id = .lt := by
    have hmem : id ∈ after position ids := by
      rw [haft]
      exact mem_append_right _ mem_cons_self
    exact (mem_filter.mp hmem).2
  have hnested : after (some id) ids = after (some id) (after position ids) := by
    unfold after
    rw [filter_filter]
    refine filter_congr fun other _ => ?_
    rw [Bool.eq_iff_iff, Bool.and_eq_true]
    refine ⟨fun hoth => ⟨hoth, ?_⟩, And.left⟩
    cases position with
    | none => rfl
    | some start =>
      have hsta : compare start id = .lt := by simpa using hid
      have hlat : compare id other = .lt := by simpa using hoth
      simpa using Std.TransCmp.lt_trans hsta hlat
  have hasc : Ascending (front ++ id :: back) := by
    rw [← haft]
    exact h.filter _
  obtain ⟨-, hback, hcross⟩ := pairwise_append.mp hasc
  have hfr : ∀ other ∈ front, ¬ compare id other = .lt := fun other hoth hlt => by
    have hless : compare other id = .lt := hcross other hoth id mem_cons_self
    rw [Std.OrientedOrd.eq_swap, hless] at hlt
    cases hlt
  rw [hnested, haft]
  unfold after
  rw [filter_append, filter_eq_nil_iff.mpr, nil_append, filter_cons_of_neg, filter_eq_self.mpr]
  · intro other hoth
    simpa using (pairwise_cons.mp hback).1 other hoth
  · simp [Std.ReflCmp.compare_self]
  · intro other hoth
    simpa using hfr other hoth

/-- **Pages of positive sizes end, and are all there is, each once.** -/
theorem exists_walk {ids : List K} (h : Ascending ids) {limits : Nat → Nat}
    (hlims : ∀ turn, 0 < limits turn) (turn : Nat) (position : Option K) :
    ∃ pages, Walk ids limits turn position pages ∧ pages.flatten = after position ids := by
  -- by induction on the number of identifiers that are left
  induction hleft : (after position ids).length using Nat.strong_induction_on
    generalizing turn position with
  | _ left ih =>
    have hspl := take_append_drop (limits turn) (after position ids)
    cases hdrop : (after position ids).drop (limits turn) with
    | nil =>
      rw [hdrop, append_nil] at hspl
      refine ⟨[(after position ids).take (limits turn)], .last ?_, ?_⟩
      · rw [page, hdrop]
        rfl
      · rw [flatten_singleton, hspl]
    | cons next rest =>
      have hnon : (after position ids).take (limits turn) ≠ [] := by
        intro hnil
        rcases take_eq_nil_iff.mp hnil with hzero | hemp
        · exact absurd hzero (Nat.pos_iff_ne_zero.mp (hlims turn))
        · rw [hemp, drop_nil] at hdrop
          cases hdrop
      obtain ⟨front, last, hfr⟩ := (eq_nil_or_concat' _).resolve_left hnon
      have hrest : after (some last) ids = next :: rest := by
        refine @after_last _ _ _ ids front _ position last h ?_
        rw [← hspl, hdrop, hfr, append_assoc]
        rfl
      have hfewer : (after (some last) ids).length < left := by
        rw [← hleft, ← hspl, hrest, hdrop, hfr, length_append, length_append]
        exact Nat.lt_add_of_pos_left (Nat.succ_pos _)
      obtain ⟨pages, hwalk, hpages⟩ := ih _ hfewer (turn + 1) (some last) rfl
      refine ⟨(front ++ [last]) :: pages, .next ?_ getLast?_concat hwalk, ?_⟩
      · rw [page, hdrop, hfr]
        rfl
      · rw [flatten_cons, hpages, hrest, ← hspl, hdrop, hfr]

end Termivar.Paging
