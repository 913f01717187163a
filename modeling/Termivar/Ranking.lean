/-
# Entries told apart by a number

Entries in any order, each with a number of its own: listed by their numbers,
the highest first, they are one list whatever their order was. The lowest entry
is the last of it, a new highest one the first, and entries renumbered in order
keep their places.
-/
import Mathlib

namespace Termivar

open List

variable {α : Type} (rank : α → Nat)

/-- The entries by their ranks, the highest first; no two have the same. -/
structure Ranked (entries ranking : List α) : Prop where
  perm : entries.Perm ranking
  descending : ranking.Pairwise fun left right => rank right < rank left

/-- `min_by_key`: the first of the entries with the lowest rank. -/
def lowest : List α → Option α
  | [] => none
  | entry :: entries =>
    match lowest entries with
    | some other => if rank entry ≤ rank other then some entry else some other
    | none => some entry

/-- `sort_by_key`, and each entry with its place written into it. -/
def renumbered (write : α → Nat → α) (entries : List α) : List α :=
  ((entries.insertionSort fun left right => rank left ≤ rank right).zipIdx).map fun place =>
    write place.1 place.2

variable {rank} {entries entries' ranking : List α}

theorem ranked_nil : Ranked rank [] [] := ⟨.nil, .nil⟩

theorem Ranked.of_perm (h : Ranked rank entries ranking) (hperm : entries'.Perm entries) :
    Ranked rank entries' ranking :=
  ⟨hperm.trans h.perm, h.descending⟩

theorem Ranked.cons (h : Ranked rank entries ranking) {entry : α}
    (hfirst : ∀ other ∈ entries, rank other < rank entry) :
    Ranked rank (entry :: entries) (entry :: ranking) :=
  ⟨h.perm.cons entry, pairwise_cons.mpr
    ⟨fun other hoth => hfirst other (h.perm.mem_iff.mpr hoth), h.descending⟩⟩

theorem Ranked.filter (h : Ranked rank entries ranking) (p : α → Bool) :
    Ranked rank (entries.filter p) (ranking.filter p) :=
  ⟨h.perm.filter p, h.descending.filter p⟩

/-- No two entries have the same rank. -/
theorem Ranked.nodup (h : Ranked rank entries ranking) : (entries.map rank).Nodup := by
  rw [(h.perm.map rank).nodup_iff]
  exact pairwise_map.mpr (h.descending.imp fun hlt => Nat.ne_of_gt hlt)

theorem lowest_eq_none : lowest rank entries = none ↔ entries = [] := by
  cases entries with
  | nil => simp [lowest]
  | cons entry entries =>
    unfold lowest
    cases lowest rank entries with
    | none => simp
    | some other => by_cases hle : rank entry ≤ rank other <;> simp [hle]

theorem lowest_spec : ∀ {entries : List α} {entry : α}, lowest rank entries = some entry →
    entry ∈ entries ∧ ∀ other ∈ entries, rank entry ≤ rank other
  | [], entry, h => by cases h
  | first :: rest, entry, h => by
    unfold lowest at h
    cases hrest : lowest rank rest with
    | none =>
      rw [hrest] at h
      cases h
      rw [lowest_eq_none.mp hrest]
      exact ⟨mem_cons_self, by simp⟩
    | some other =>
      obtain ⟨hmem, hleast⟩ := lowest_spec hrest
      simp only [hrest] at h
      split_ifs at h with hle
      · cases h
        exact ⟨mem_cons_self, forall_mem_cons.mpr
          ⟨le_rfl, fun next hnext => hle.trans (hleast next hnext)⟩⟩
      · cases h
        exact ⟨mem_cons_of_mem _ hmem, forall_mem_cons.mpr ⟨Nat.le_of_not_le hle, hleast⟩⟩

/-- **The lowest entry is the last of the ranking.** -/
theorem Ranked.lowest_eq (h : Ranked rank entries ranking) :
    lowest rank entries = ranking.getLast? := by
  rcases eq_nil_or_concat' ranking with rfl | ⟨front, last, rfl⟩
  · rw [lowest_eq_none.mpr (perm_nil.mp h.perm)]
    rfl
  · rw [getLast?_concat]
    cases hlowest : lowest rank entries with
    | none =>
      have hnil := lowest_eq_none.mp hlowest
      have hlength := h.perm.length_eq
      rw [hnil, length_append] at hlength
      simp at hlength
    | some entry =>
      obtain ⟨hmem, hleast⟩ := lowest_spec hlowest
      rcases mem_append.mp (h.perm.mem_iff.mp hmem) with hfr | hlast
      · have hlast : last ∈ entries :=
          h.perm.mem_iff.mpr (mem_append_right _ mem_cons_self)
        have hlower := (pairwise_append.mp h.descending).2.2 entry hfr last mem_cons_self
        exact absurd (hleast last hlast) (Nat.not_le_of_lt hlower)
      · rw [mem_singleton.mp hlast]

/-- Sorted by their ranks, the entries are the ranking from its end. -/
theorem Ranked.sort_eq (h : Ranked rank entries ranking) :
    entries.insertionSort (fun left right => rank left ≤ rank right) = ranking.reverse := by
  have htot : Std.Total fun left right : α => rank left ≤ rank right :=
    ⟨fun left right => Nat.le_total _ _⟩
  have htrans : IsTrans α fun left right => rank left ≤ rank right :=
    ⟨fun _ _ _ => Nat.le_trans⟩
  have hsort := pairwise_insertionSort (fun left right => rank left ≤ rank right) entries
  have hperm := perm_insertionSort (fun left right => rank left ≤ rank right) entries
  have hdesc : ranking.reverse.Pairwise fun left right => rank left ≤ rank right :=
    pairwise_reverse.mpr (h.descending.imp fun hlt => Nat.le_of_lt hlt)
  refine List.Perm.eq_of_pairwise ?_ hsort hdesc
    (hperm.trans (h.perm.trans ranking.reverse_perm.symm))
  intro left right hleft hright hle hge
  exact inj_on_of_nodup_map h.nodup (hperm.mem_iff.mp hleft)
    (h.perm.mem_iff.mpr (mem_reverse.mp hright)) (Nat.le_antisymm hle hge)

/-- Whatever the writes leave alone. -/
theorem renumbered_perm {β : Type} {write : α → Nat → α} {forget : α → β}
    (hforg : ∀ entry place, forget (write entry place) = forget entry) :
    ((renumbered rank write entries).map forget).Perm (entries.map forget) := by
  have hfirst : (renumbered rank write entries).map forget =
      ((entries.insertionSort fun left right => rank left ≤ rank right).zipIdx.map Prod.fst).map
        forget := by
    simp only [renumbered, hforg, map_map, Function.comp_def]
  rw [hfirst, zipIdx_map_fst]
  exact (perm_insertionSort _ entries).map forget

/-- **Entries renumbered in order keep their places.** Nothing but the number
changes, and the numbers are those below the number of entries. -/
theorem Ranked.renumbered {β : Type} (h : Ranked rank entries ranking) {write : α → Nat → α}
    {forget : α → β} (hwr : ∀ entry place, rank (write entry place) = place)
    (hforg : ∀ entry place, forget (write entry place) = forget entry) :
    ∃ ranking', Ranked rank (renumbered rank write entries) ranking' ∧
      ranking'.map forget = ranking.map forget ∧
      ∀ entry ∈ renumbered rank write entries, rank entry < entries.length := by
  have hren : Termivar.renumbered rank write entries =
      ranking.reverse.zipIdx.map fun place => write place.1 place.2 := by
    rw [Termivar.renumbered, h.sort_eq]
  refine ⟨(Termivar.renumbered rank write entries).reverse, ⟨(reverse_perm _).symm, ?_⟩, ?_, ?_⟩
  · rw [pairwise_reverse, hren, pairwise_map]
    have hplaces : (ranking.reverse.zipIdx.map Prod.snd).Pairwise fun left right => left < right := by
      rw [zipIdx_map_snd]
      exact pairwise_lt_range'
    exact (pairwise_map.mp hplaces).imp fun hlt => by rwa [hwr, hwr]
  · rw [hren, map_reverse, map_map, reverse_eq_iff, ← map_reverse]
    have hfirst : ranking.reverse.zipIdx.map (fun place => forget (write place.1 place.2)) =
        (ranking.reverse.zipIdx.map Prod.fst).map forget := by
      simp only [hforg, map_map, Function.comp_def]
    exact hfirst.trans (by rw [zipIdx_map_fst])
  · intro entry hent
    rw [hren] at hent
    obtain ⟨⟨old, place⟩, hplace, rfl⟩ := mem_map.mp hent
    have hlt := snd_lt_of_mem_zipIdx hplace
    rw [hwr, h.perm.length_eq, ← length_reverse]
    omega

end Termivar
