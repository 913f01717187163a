/-
# What is merged for one key

The names kept for a route or a form are the first of all that came for it, and
a name is left out of them in a merge only if there are too many. Whether that
happens before the key is taken out of its map depends on the order: it does
where the key comes first (`meets_first`), and where everything comes in
ascending order only for a key that is kept in the end (`overflow_of_ascending`).
-/
import Termivar.Discovery.Findings

namespace Termivar.Discovery

open SortedPrefix List

/-- All names of some parts. -/
def unionOf {W : Type} (part : W → Finset String) : List W → Finset String
  | [] => ∅
  | value :: values => part value ∪ unionOf part values

theorem mem_unionOf {W : Type} {part : W → Finset String} {name : String} : ∀ {values : List W},
    name ∈ unionOf part values ↔ ∃ value ∈ values, name ∈ part value
  | [] => by simp [unionOf]
  | value :: values => by
    rw [unionOf, Finset.mem_union, mem_unionOf]
    simp

theorem unionOf_concat {W : Type} (part : W → Finset String) (values : List W) (value : W) :
    unionOf part (values ++ [value]) = unionOf part values ∪ part value := by
  ext name
  simp [mem_unionOf, Finset.mem_union, or_and_right, exists_or]

/-! ### Merged names -/

theorem mergeNames_firstNames (s t : Finset String) :
    (mergeNames (firstNames s) (firstNames t)).1 = firstNames (s ∪ t) := by
  unfold mergeNames firstNames
  rw [collect_eq, take_sort_union]

theorem lt_card_of_mergeNames {s t : Finset String}
    (h : (mergeNames (firstNames s) (firstNames t)).2 = true) :
    hardMaxDiscoveryNamesPerReference < (s ∪ t).card := by
  refine (lt_card_of_collect h).trans_le (Finset.card_le_card ?_)
  refine Finset.union_subset_union_right fun name hname => ?_
  exact (Finset.mem_sort (· ≤ ·)).mp (mem_of_mem_take (mem_toFinset.mp hname))

theorem mergeNames_of_lt_card {s t : Finset String} (hs : s.card ≤ hardMaxDiscoveryNamesPerReference)
    (ht : t.card ≤ hardMaxDiscoveryNamesPerReference)
    (h : hardMaxDiscoveryNamesPerReference < (s ∪ t).card) :
    (mergeNames (firstNames s) (firstNames t)).2 = true := by
  refine collect_of_lt_card hs ?_
  rwa [firstNames, take_of_length_le (by rwa [Finset.length_sort]), Finset.sort_toFinset]

variable {K V W : Type} [LinearOrder K] {limit : Nat} {fresh : W → V} {add : V → W → V}
  {names : V → List String} {part : W → Finset String} {parts : List (K × W)} {key : K}

/-- Names of the values of a map that grow by merges. -/
structure Tracks (fresh : W → V) (add : V → W → V) (names : V → List String)
    (part : W → Finset String) : Prop where
  fresh_eq : ∀ value, names (fresh value) = firstNames (part value)
  add_eq : ∀ held value, names (add held value) =
    (mergeNames (names held) (firstNames (part value))).1

/-- A merge leaves a name out. -/
def Overflows (names : V → List String) (part : W → Finset String) (held : V) (value : W) : Prop :=
  (mergeNames (names held) (firstNames (part value))).2 = true

namespace Tracks

/-- **The names kept are the first of all that came.** -/
theorem names_of_total (h : Tracks fresh add names part) {values : List W} {held : V}
    (htot : total fresh add values = some held) :
    names held = firstNames (unionOf part values) := by
  induction values using reverseRecOn generalizing held with
  | nil => cases htot
  | append_singleton values value ih =>
    cases hbef : total fresh add values with
    | none =>
      rw [total_eq_none.mp hbef] at htot ⊢
      cases htot
      simp [unionOf, h.fresh_eq]
    | some before =>
      rw [total_concat hbef] at htot
      cases htot
      rw [h.add_eq, ih hbef, mergeNames_firstNames, unionOf_concat]

/-- A merge that leaves a name out leaves it out of too many. -/
theorem lt_card (h : Tracks fresh add names part) {before after : List (K × W)} {found : K × W}
    {held : V} (htot : total fresh add (valuesOf found.1 before) = some held)
    (hover : Overflows names part held found.2) : hardMaxDiscoveryNamesPerReference <
      (unionOf part (valuesOf found.1 (before ++ found :: after))).card := by
  rw [Overflows, h.names_of_total htot] at hover
  refine (lt_card_of_mergeNames hover).trans_le (Finset.card_le_card fun name hname => ?_)
  rw [Finset.mem_union, mem_unionOf] at hname
  rw [mem_unionOf]
  rcases hname with ⟨value, hvalue, hmem⟩ | hmem
  · exact ⟨value, mem_valuesOf.mpr (mem_append_left _ (mem_valuesOf.mp hvalue)), hmem⟩
  · exact ⟨found.2, mem_valuesOf.mpr (by simp), hmem⟩

/-- **A name is left out in a merge only of too many for one key.** -/
theorem exists_crowded (h : Tracks fresh add names part)
    (hmeets : Meets limit fresh add (Overflows names part) parts) :
    0 < limit ∧ ∃ key ∈ keys parts,
      hardMaxDiscoveryNamesPerReference < (unionOf part (valuesOf key parts)).card := by
  obtain ⟨before, found, after, held, rfl, hkept, htot, hover⟩ := hmeets.exists_kept
  refine ⟨?_, found.1, mem_keys.mpr ⟨found, by simp, rfl⟩, h.lt_card htot hover⟩
  exact (Nat.zero_le _).trans_lt (mem_take_sort.mp hkept).2

/-- **In ascending order, only for a key that is kept in the end.** -/
theorem overflow_of_ascending (h : Tracks fresh add names part)
    (hasc : parts.Pairwise fun left right => left.1 ≤ right.1)
    (hmeets : Meets limit fresh add (Overflows names part) parts) :
    ∃ key ∈ (keys parts).sort.take limit,
      hardMaxDiscoveryNamesPerReference < (unionOf part (valuesOf key parts)).card := by
  obtain ⟨before, found, after, held, rfl, hkept, htot, hover⟩ := hmeets.exists_kept
  exact ⟨found.1, kept_of_ascending hasc hkept, h.lt_card htot hover⟩

/-- Where a set of names becomes too large. -/
theorem exists_overflow (hpar : ∀ value ∈ valuesOf key parts,
      (part value).card ≤ hardMaxDiscoveryNamesPerReference)
    (hcrow : hardMaxDiscoveryNamesPerReference < (unionOf part (valuesOf key parts)).card) :
    ∃ before value after, parts = before ++ (key, value) :: after ∧ valuesOf key before ≠ [] ∧
      (unionOf part (valuesOf key before)).card ≤ hardMaxDiscoveryNamesPerReference ∧
      hardMaxDiscoveryNamesPerReference < (unionOf part (valuesOf key before) ∪ part value).card := by
  induction parts using reverseRecOn with
  | nil => exact absurd hcrow (by simp [valuesOf, unionOf])
  | append_singleton parts found ih =>
    rw [valuesOf_concat] at hpar hcrow
    by_cases hold : hardMaxDiscoveryNamesPerReference < (unionOf part (valuesOf key parts)).card
    · obtain ⟨before, value, after, rfl, hrest⟩ :=
        ih (fun value hvalue => hpar value (mem_append_left _ hvalue)) hold
      exact ⟨before, value, after ++ [found], by simp, hrest⟩
    · have hkey : found.1 = key := by
        by_contra hoth
        rw [if_neg hoth, append_nil] at hcrow
        exact hold hcrow
      rw [if_pos hkey, unionOf_concat] at hcrow
      have hfnd := hpar found.2 (by simp [hkey])
      refine ⟨parts, found.2, [], by rw [← hkey], fun hnil => ?_, Nat.le_of_not_lt hold, hcrow⟩
      rw [hnil, unionOf, Finset.empty_union] at hcrow
      omega

/-- **Too many names for a key that is kept are met in a merge.** -/
theorem meets_kept (h : Tracks fresh add names part) (hkept : key ∈ (keys parts).sort.take limit)
    (hpar : ∀ value ∈ valuesOf key parts, (part value).card ≤ hardMaxDiscoveryNamesPerReference)
    (hcrow : hardMaxDiscoveryNamesPerReference < (unionOf part (valuesOf key parts)).card) :
    Meets limit fresh add (Overflows names part) parts := by
  obtain ⟨before, value, after, rfl, hseen, hfew, hmany⟩ := exists_overflow hpar hcrow
  obtain ⟨held, htot⟩ := exists_total fresh add hseen
  have hkey : key ∈ keys before := by
    obtain ⟨first, rest, hvalues⟩ := exists_cons_of_ne_nil hseen
    exact mem_keys.mpr ⟨_, mem_valuesOf.mp (hvalues ▸ mem_cons_self), rfl⟩
  refine meets_of_kept (kept_of_isPrefix hkept hkey) htot ?_
  rw [Overflows, h.names_of_total htot]
  exact mergeNames_of_lt_card hfew (hpar value (mem_valuesOf.mpr (by simp))) hmany

/-- **Too many names for a key that comes first are met in a merge.** -/
theorem meets_first (h : Tracks fresh add names part) (hlimit : 0 < limit) {rest : List (K × W)}
    (hfirst : ∀ found ∈ parts, found.1 = key)
    (hpar : ∀ value ∈ valuesOf key parts, (part value).card ≤ hardMaxDiscoveryNamesPerReference)
    (hcrow : hardMaxDiscoveryNamesPerReference < (unionOf part (valuesOf key parts)).card) :
    Meets limit fresh add (Overflows names part) (parts ++ rest) := by
  refine (h.meets_kept ?_ hpar hcrow).append rest
  rw [mem_take_sort]
  constructor
  · obtain ⟨before, value, after, rfl, -⟩ := exists_overflow hpar hcrow
    exact mem_keys.mpr ⟨(key, value), by simp, rfl⟩
  · have hnone : (keys parts).filter (· < key) = ∅ := by
      rw [Finset.filter_eq_empty_iff]
      intro other hoth
      obtain ⟨found, hfnd, rfl⟩ := mem_keys.mp hoth
      exact (hfirst found hfnd).not_lt
    rw [hnone]
    exact hlimit

end Tracks

/-! ### The three sets of names -/

theorem tracks_route : Tracks freshRoute addRoute RouteAccumulator.queryParameterNames Prod.snd :=
  ⟨fun _ => rfl, fun _ _ => rfl⟩

theorem tracks_formNames : Tracks freshForm addForm FormAccumulator.queryParameterNames Prod.fst :=
  ⟨fun _ => rfl, fun _ _ => rfl⟩

theorem tracks_formControls : Tracks freshForm addForm FormAccumulator.controlNames Prod.snd :=
  ⟨fun _ => rfl, fun _ _ => rfl⟩

/-- A route is got if one of its references is. -/
def methodOf (parts : List RoutePart) : WebAssessmentMethod :=
  if parts.any fun part => part.1 = .get then .get else .head

theorem total_route {values : List RoutePart} (h : values ≠ []) :
    total freshRoute addRoute values =
      some ⟨methodOf values, firstNames (unionOf Prod.snd values)⟩ := by
  obtain ⟨held, htot⟩ := exists_total freshRoute addRoute h
  have hmethod : held.method = methodOf values := by
    clear h
    induction values using reverseRecOn generalizing held with
    | nil => cases htot
    | append_singleton values value ih =>
      cases hbef : total freshRoute addRoute values with
      | none =>
        rw [total_eq_none.mp hbef] at htot ⊢
        cases htot
        obtain ⟨method, names⟩ := value
        cases method <;> rfl
      | some before =>
        rw [total_concat hbef] at htot
        cases htot
        change (if value.1 = .get then .get else before.method) = _
        rw [ih before hbef, methodOf, methodOf, any_append]
        obtain ⟨method, names⟩ := value
        cases method with
        | get => rw [any_cons, decide_eq_true rfl, Bool.true_or, Bool.or_true, if_pos rfl, if_pos rfl]
        | head => rw [any_cons, any_nil, Bool.or_false, decide_eq_false (by simp), Bool.or_false,
            if_neg (by simp)]
  rw [htot, ← hmethod, ← tracks_route.names_of_total htot]

theorem total_form {values : List FormPart} (h : values ≠ []) : total freshForm addForm values =
    some ⟨firstNames (unionOf Prod.fst values), firstNames (unionOf Prod.snd values)⟩ := by
  obtain ⟨held, htot⟩ := exists_total freshForm addForm h
  rw [htot, ← tracks_formNames.names_of_total htot, ← tracks_formControls.names_of_total htot]

end Termivar.Discovery
