/-
# Visibility diffs

`termivar-scanner/src/api_evidence/profiled/diff.rs`: the paths whose entries
differ between two path indices, by how they differ, sorted, as many as the
profile retains, and the number of those left out. A diff carries what
`from_parts` checks. The diff of two indices is always built
(`visibilityDiff_ok`).
-/
import Termivar.ApiEvidence.Canonical

namespace Termivar.ApiEvidence

open List

/-! ### Path digests -/

/-- The digest of a structural path. -/
structure PathDigest where
  bytes : Bytes
  deriving DecidableEq

namespace PathDigest

def key (digest : PathDigest) : List Nat := digest.bytes.map UInt8.toNat

theorem key_injective : Function.Injective key := by
  rintro ⟨left⟩ ⟨right⟩ h
  rw [mk.injEq]
  exact map_injective_iff.mpr (fun _ _ => UInt8.toNat_inj.mp) h

instance : LinearOrder PathDigest := LinearOrder.lift' key key_injective

end PathDigest

/-- What a sorted list without duplicates is. -/
abbrev StrictlySorted (digests : List PathDigest) : Prop := digests.Pairwise (· < ·)

/-! ### Diffs -/

/-- The paths whose entries differ, with what their constructor checks. -/
structure RedactedVisibilityDiff where
  (addedPathHashes removedPathHashes changedTypePathHashes changedValuePathHashes : List PathDigest)
  omittedDiffCount : Nat
  addedSorted : StrictlySorted addedPathHashes
  removedSorted : StrictlySorted removedPathHashes
  changedTypeSorted : StrictlySorted changedTypePathHashes
  changedValueSorted : StrictlySorted changedValuePathHashes
  few : addedPathHashes.length + removedPathHashes.length + changedTypePathHashes.length +
    changedValuePathHashes.length ≤ hardMaxApiVisibilityDiffPaths
  exclusive : (addedPathHashes ++ removedPathHashes ++ changedTypePathHashes ++
    changedValuePathHashes).Nodup

namespace RedactedVisibilityDiff

open Pruning (sortDedup sorted_sortDedup sortDedup_eq_self)

def fromParts (added removed changedType changedValue : List PathDigest) (omittedDiffCount : Nat) :
    Except ProfiledApiVisibilityError RedactedVisibilityDiff :=
  if few : (sortDedup added).length + (sortDedup removed).length + (sortDedup changedType).length +
      (sortDedup changedValue).length ≤ hardMaxApiVisibilityDiffPaths then
    if exclusive : (sortDedup added ++ sortDedup removed ++ sortDedup changedType ++
        sortDedup changedValue).Nodup then
      .ok {
        addedPathHashes := sortDedup added
        removedPathHashes := sortDedup removed
        changedTypePathHashes := sortDedup changedType
        changedValuePathHashes := sortDedup changedValue
        omittedDiffCount
        addedSorted := sorted_sortDedup added
        removedSorted := sorted_sortDedup removed
        changedTypeSorted := sorted_sortDedup changedType
        changedValueSorted := sorted_sortDedup changedValue
        few, exclusive }
    else .error .overlappingDiffCategories
  else .error (.tooManyDiffPaths hardMaxApiVisibilityDiffPaths)

/-- Every diff is built from its own parts. -/
theorem fromParts_self (diff : RedactedVisibilityDiff) :
    fromParts diff.addedPathHashes diff.removedPathHashes diff.changedTypePathHashes
      diff.changedValuePathHashes diff.omittedDiffCount = .ok diff := by
  obtain ⟨added, removed, changedType, changedValue, omitted, hadded, hrem, htype, hvalue, hfew,
    hexclusive⟩ := diff
  unfold fromParts
  simp only [sortDedup_eq_self hadded, sortDedup_eq_self hrem, sortDedup_eq_self htype,
    sortDedup_eq_self hvalue, dif_pos hfew, dif_pos hexclusive]

end RedactedVisibilityDiff

/-! ### Differences -/

inductive DiffKind where
  | added
  | removed
  | changedType
  | changedValue
  deriving DecidableEq

def DiffKind.rank : DiffKind → Nat
  | .added => 0
  | .removed => 1
  | .changedType => 2
  | .changedValue => 3

theorem DiffKind.rank_injective : Function.Injective DiffKind.rank := by
  intro left right h
  cases left <;> cases right <;> first | rfl | cases h

instance : LinearOrder DiffKind := LinearOrder.lift' DiffKind.rank DiffKind.rank_injective

variable (dimension : ApiVisibilityDimension)

/-- How the entry of a path of the baseline differs from the candidate's. -/
def baselineDifference (candidate : PathIndex)
    (entry : Bytes × PathFingerprint) : Option DiffKind :=
  match candidate[entry.1]? with
  | none => some .removed
  | some other =>
    if entry.2.typeMask ≠ other.typeMask then some .changedType
    else if dimension = .resources ∧ entry.2.scalarValueDigests ≠ other.scalarValueDigests ∧
        (entry.2.scalarValueDigests ≠ [] ∨ other.scalarValueDigests ≠ []) then some .changedValue
    else none

/-- The paths whose entries differ, with how they do, before they are sorted. -/
def unsortedDifferences (baseline candidate : PathIndex) :
    List (PathDigest × DiffKind) :=
  (baseline.toList.filterMap fun entry =>
      (baselineDifference dimension candidate entry).map fun kind => (⟨entry.1⟩, kind)) ++
    (candidate.keys.filter fun path => !baseline.contains path).map fun path => (⟨path⟩, .added)

def pathDifferences (baseline candidate : PathIndex) :
    List (PathDigest × DiffKind) :=
  (unsortedDifferences dimension baseline candidate).insertionSort
    fun left right => toLex left ≤ toLex right

/-- The paths of one kind. -/
def ofKind (kind : DiffKind) (differences : List (PathDigest × DiffKind)) : List PathDigest :=
  (differences.filter fun difference => difference.2 = kind).map Prod.fst

def visibilityDiff (baseline candidate : PathIndex)
    (maxDiffPaths : Nat) : Except ProfiledApiVisibilityError RedactedVisibilityDiff :=
  if dimension = .status then RedactedVisibilityDiff.fromParts [] [] [] [] 0
  else
    let differences := pathDifferences dimension baseline candidate
    let retained := min differences.length maxDiffPaths
    let omittedDiffCount := min (differences.length - retained) u32Max
    let kept := differences.take retained
    RedactedVisibilityDiff.fromParts (ofKind .added kept) (ofKind .removed kept)
      (ofKind .changedType kept) (ofKind .changedValue kept) omittedDiffCount

/-! ### The diff of two indices -/

section Diff

variable {dimension : ApiVisibilityDimension} {baseline candidate : PathIndex}

/-- Every path is named once. -/
theorem nodup_unsortedDifferences :
    ((unsortedDifferences dimension baseline candidate).map Prod.fst).Nodup := by
  have hbas : (baseline.toList.filterMap fun entry =>
      (baselineDifference dimension candidate entry).map fun kind =>
        ((⟨entry.1⟩, kind) : PathDigest × DiffKind)).map Prod.fst =
      ((baseline.toList.filter fun entry =>
        (baselineDifference dimension candidate entry).isSome).map Prod.fst).map PathDigest.mk := by
    induction baseline.toList with
    | nil => rfl
    | cons entry entries ih =>
      rw [filterMap_cons, filter_cons]
      cases baselineDifference dimension candidate entry <;> simp [ih]
  have hinj : Function.Injective PathDigest.mk := fun _ _ h => PathDigest.mk.inj h
  rw [unsortedDifferences, map_append, map_map, hbas, nodup_append]
  refine ⟨?_, ?_, ?_⟩
  · exact ((keys_nodup baseline).sublist (filter_sublist.map Prod.fst)).map hinj
  · exact (Std.ExtTreeMap.nodup_keys.filter _).map hinj
  · intro path hpath other hoth heq
    subst heq
    obtain ⟨key, hkey, rfl⟩ := mem_map.mp hpath
    obtain ⟨entry, hent, rfl⟩ := mem_map.mp hkey
    obtain ⟨key', hkey', hsame⟩ := mem_map.mp hoth
    have hcont : baseline.contains entry.1 = true := by
      rw [contains_eq_isSome, mem_toList.mp (mem_of_mem_filter hent)]
      rfl
    obtain rfl : key' = entry.1 := PathDigest.mk.inj hsame
    simp [hcont] at hkey'

theorem perm_pathDifferences : (pathDifferences dimension baseline candidate).Perm
    (unsortedDifferences dimension baseline candidate) :=
  perm_insertionSort _ _

/-- The differences are sorted by their paths, and name every path once. -/
theorem sorted_pathDifferences :
    StrictlySorted ((pathDifferences dimension baseline candidate).map Prod.fst) := by
  have hnd : ((pathDifferences dimension baseline candidate).map Prod.fst).Nodup :=
    ((perm_pathDifferences.map Prod.fst).nodup_iff).mpr nodup_unsortedDifferences
  have hsort : (pathDifferences dimension baseline candidate).Pairwise
      fun left right => toLex left ≤ toLex right := pairwise_insertionSort _ _
  have hpaths : ((pathDifferences dimension baseline candidate).map Prod.fst).Pairwise (· ≤ ·) :=
    pairwise_map.mpr (hsort.imp fun h => (Prod.Lex.le_iff'.mp h).1)
  exact (hpaths.and hnd).imp fun h => lt_of_le_of_ne h.1 h.2

/-- The paths of the four kinds are all the paths. -/
theorem perm_ofKind : ∀ differences : List (PathDigest × DiffKind),
    (ofKind .added differences ++ ofKind .removed differences ++ ofKind .changedType differences ++
      ofKind .changedValue differences).Perm (differences.map Prod.fst)
  | [] => List.Perm.refl _
  | (path, kind) :: differences => by
    have ih := perm_ofKind differences
    simp only [append_assoc] at ih ⊢
    refine List.Perm.trans ?_ (List.Perm.cons path ih)
    cases kind
    · exact List.Perm.refl _
    · exact perm_middle
    · rw [← append_assoc, ← append_assoc (ofKind .added differences)]
      exact perm_middle
    · rw [← append_assoc, ← append_assoc, ← append_assoc (ofKind .added differences),
        ← append_assoc (ofKind .added differences ++ _)]
      exact perm_middle

/-- The paths of one kind in a diff. -/
def RedactedVisibilityDiff.paths (diff : RedactedVisibilityDiff) : DiffKind → List PathDigest
  | .added => diff.addedPathHashes
  | .removed => diff.removedPathHashes
  | .changedType => diff.changedTypePathHashes
  | .changedValue => diff.changedValuePathHashes

/-- A diff is built of differences that are sorted and not too many. -/
theorem fromParts_ofKind {differences : List (PathDigest × DiffKind)} (omittedDiffCount : Nat)
    (hsort : StrictlySorted (differences.map Prod.fst))
    (hfew : differences.length ≤ hardMaxApiVisibilityDiffPaths) :
    ∃ diff, RedactedVisibilityDiff.fromParts (ofKind .added differences)
        (ofKind .removed differences) (ofKind .changedType differences)
        (ofKind .changedValue differences) omittedDiffCount = .ok diff ∧
      (∀ kind, diff.paths kind = ofKind kind differences) ∧
      diff.omittedDiffCount = omittedDiffCount := by
  have hkind : ∀ kind, StrictlySorted (ofKind kind differences) := fun kind =>
    hsort.sublist (filter_sublist.map Prod.fst)
  have hperm := perm_ofKind differences
  have hlength := hperm.length_eq
  have hnd := (hperm.nodup_iff).mpr (hsort.imp fun h => ne_of_lt h)
  simp only [length_append, length_map] at hlength
  refine ⟨⟨_, _, _, _, omittedDiffCount, hkind .added, hkind .removed, hkind .changedType,
    hkind .changedValue, by omega, hnd⟩, ?_, fun kind => by cases kind <;> rfl, rfl⟩
  exact RedactedVisibilityDiff.fromParts_self ⟨_, _, _, _, omittedDiffCount, hkind .added,
    hkind .removed, hkind .changedType, hkind .changedValue, by omega, hnd⟩

/-- The differences of a dimension: a status has none. -/
def differing (dimension : ApiVisibilityDimension) (baseline candidate : PathIndex) :
    List (PathDigest × DiffKind) :=
  if dimension = .status then [] else pathDifferences dimension baseline candidate

theorem sorted_differing :
    StrictlySorted ((differing dimension baseline candidate).map Prod.fst) := by
  unfold differing
  split_ifs
  · exact List.Pairwise.nil
  · exact sorted_pathDifferences

/-- **The diff of two indices is built: the first differences, by their kinds,
and how many are left out.** -/
theorem visibilityDiff_ok {maxDiffPaths : Nat} (h : maxDiffPaths ≤ hardMaxApiVisibilityDiffPaths) :
    ∃ diff, visibilityDiff dimension baseline candidate maxDiffPaths = .ok diff ∧
      (∀ kind, diff.paths kind =
        ofKind kind ((differing dimension baseline candidate).take maxDiffPaths)) ∧
      diff.omittedDiffCount =
        min ((differing dimension baseline candidate).length - maxDiffPaths) u32Max := by
  have hsort : StrictlySorted
      (((differing dimension baseline candidate).take maxDiffPaths).map Prod.fst) :=
    sorted_differing.sublist ((take_sublist _ _).map Prod.fst)
  obtain ⟨diff, hdiff, hpaths, homit⟩ := fromParts_ofKind
    (min ((differing dimension baseline candidate).length - maxDiffPaths) u32Max) hsort
    ((length_take_le _ _).trans h)
  refine ⟨diff, ?_, hpaths, homit⟩
  rw [← hdiff]
  unfold visibilityDiff differing
  split_ifs with hstat
  · simp [ofKind]
  · have hret : (pathDifferences dimension baseline candidate).length -
        min (pathDifferences dimension baseline candidate).length maxDiffPaths =
        (pathDifferences dimension baseline candidate).length - maxDiffPaths := by omega
    have htake : (pathDifferences dimension baseline candidate).take
        (min (pathDifferences dimension baseline candidate).length maxDiffPaths) =
        (pathDifferences dimension baseline candidate).take maxDiffPaths := by
      rw [min_comm, ← take_take, take_length]
    simp only [hret, htake]

end Diff

end Termivar.ApiEvidence
