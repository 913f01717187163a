/-
# Discovery is what it would keep of everything

All findings of a document merged by URL, or by action and method, and then cut
to the limits: this is what the walk keeps, whose maps and sets never hold more
than the limits allow (`parse_routes_eq`, `parse_forms_eq`). So the order of the
elements does not matter; what is kept is of the document's origin; and where no
flag is raised, nothing was left out (`parseDocument_merged_then_cut`).
-/
import Termivar.Discovery.Merge

namespace Termivar.Discovery

open SortedPrefix List

variable {U : Type} [LinearOrder U] (crate : UrlCrate U) (documentUrl : U)
  (limits : WebAssessmentLimits)

/-! ### Everything merged -/

/-- All that was found for a URL: a route to be got if one of the references is,
with the names of all of them. -/
def mergedRoute (findings : List (Finding U)) (url : U) : U × WebAssessmentMethod × Finset String :=
  (url, methodOf (valuesOf url (routeParts findings)),
    unionOf Prod.snd (valuesOf url (routeParts findings)))

/-- All routes of the findings, in the order of their URLs. -/
def mergedRoutes (findings : List (Finding U)) : List (U × WebAssessmentMethod × Finset String) :=
  (keys (routeParts findings)).sort.map (mergedRoute findings)

/-- All that was found for an action and a method. -/
def mergedForm (findings : List (Finding U)) (key : FormKey U) :
    FormKey U × Finset String × Finset String :=
  (key, unionOf Prod.fst (valuesOf key (formParts findings)),
    unionOf Prod.snd (valuesOf key (formParts findings)))

/-- All forms of the findings, in the order of their actions and methods. -/
def mergedForms (findings : List (Finding U)) : List (FormKey U × Finset String × Finset String) :=
  (keys (formParts findings)).sort.map (mergedForm findings)

local instance trans_names : IsTrans String (· ≤ ·) := inferInstance
local instance antisymm_names : @Std.Antisymm String (· ≤ ·) := inferInstance

/-- A route with the first of its names. -/
def keepRoute (route : U × WebAssessmentMethod × Finset String) : ParsedRoute U where
  url := route.1
  method := route.2.1
  queryParameterNames := route.2.2.sort.take limits.maxQueryParameterNames

/-- A form with the first of its names. -/
def keepForm (form : FormKey U × Finset String × Finset String) : ParsedForm U where
  action := (ofLex form.1).1
  method := (ofLex form.1).2
  queryParameterNames := form.2.1.sort.take limits.maxQueryParameterNames
  controlNames := form.2.2.sort.take limits.maxControlsPerForm

theorem valuesOf_ne_nil {K W : Type} [LinearOrder K] {parts : List (K × W)} {key : K}
    (h : key ∈ keys parts) : valuesOf key parts ≠ [] := by
  obtain ⟨part, hpart, rfl⟩ := mem_keys.mp h
  exact ne_nil_of_mem (mem_valuesOf.mpr hpart)

variable {limits} {findings : List (Finding U)} {progress : Progress U}

theorem Observed.routes_closed (h : Observed limits findings progress) : progress.routes =
    ((keys (routeParts findings)).sort.take limits.maxReferencesPerDocument).map fun url =>
      (url, ⟨methodOf (valuesOf url (routeParts findings)),
        firstNames (unionOf Prod.snd (valuesOf url (routeParts findings)))⟩) := by
  rw [h.routes_eq]
  exact (holds_entriesOf _ _ _ _).entries_eq fun url hurl => total_route (valuesOf_ne_nil hurl)

theorem Observed.forms_closed (h : Observed limits findings progress) : progress.forms =
    ((keys (formParts findings)).sort.take limits.maxForms).map fun key =>
      (key, ⟨firstNames (unionOf Prod.fst (valuesOf key (formParts findings))),
        firstNames (unionOf Prod.snd (valuesOf key (formParts findings)))⟩) := by
  rw [h.forms_eq]
  exact (holds_entriesOf _ _ _ _).entries_eq fun key hkey => total_form (valuesOf_ne_nil hkey)

theorem take_firstNames {n : Nat} (h : n ≤ hardMaxDiscoveryNamesPerReference)
    (names : Finset String) : (firstNames names).take n = names.sort.take n := by
  rw [firstNames, take_take, Nat.min_eq_left h]

variable (limits)

/-- **The routes kept are the first of all, each with the first of all its names.** -/
theorem parse_routes_eq (document : Handle) :
    (parseDocument crate documentUrl document limits).routes =
      ((mergedRoutes (findingsIn crate documentUrl limits document)).take
        limits.maxReferencesPerDocument).map (keepRoute limits) := by
  have hclosed := (observed_walk crate documentUrl limits document).routes_closed
  unfold parseDocument finish
  dsimp only
  rw [hclosed, mergedRoutes, ← map_take, map_map, map_map]
  refine map_congr_left fun url _ => ?_
  simp only [Function.comp_apply, mergedRoute, keepRoute, take_firstNames limits.queryNames]

/-- **The forms kept are the first of all, each with the first of all its names.** -/
theorem parse_forms_eq (document : Handle) :
    (parseDocument crate documentUrl document limits).forms =
      ((mergedForms (findingsIn crate documentUrl limits document)).take
        limits.maxForms).map (keepForm limits) := by
  have hclosed := (observed_walk crate documentUrl limits document).forms_closed
  unfold parseDocument finish
  dsimp only
  rw [hclosed, mergedForms, ← map_take, map_map, map_map]
  refine map_congr_left fun key _ => ?_
  simp only [Function.comp_apply, mergedForm, keepForm, take_firstNames limits.queryNames,
    take_firstNames limits.controls]

/-! ### Flags -/

/-- A finding says that names are left out if it has too many. -/
structure Finding.Counted (finding : Finding U) : Prop where
  route : ∀ key part, finding.routePart = some (key, part) → finding.namesDropped = false →
    part.2.card ≤ limits.maxQueryParameterNames
  form : ∀ key part, finding.formPart = some (key, part) → finding.namesDropped = false →
    part.1.card ≤ limits.maxQueryParameterNames
  controls : ∀ key part, finding.formPart = some (key, part) → finding.controlsDropped = false →
    part.2.card ≤ hardMaxDiscoveryNamesPerReference

theorem card_le_of_not_dropped {names : List String} (h : queryLimitReached limits names = false) :
    (acceptedNames names).card ≤ limits.maxQueryParameterNames := by
  rw [queryLimitReached, Bool.or_eq_false_iff, decide_eq_false_iff_not] at h
  exact Nat.le_of_not_lt h.2

omit [LinearOrder U] in
theorem Resolved.finding_cases {accepted : U → List String → Finding U} {resolved : Resolved U}
    {finding : Finding U} (h : resolved.finding accepted = some finding) :
    (∃ url names, resolved = .accepted url names ∧ accepted url names = finding) ∨
      finding = .outsideOrigin ∨ finding = .urlByteLimit := by
  cases resolved with
  | accepted url names => exact .inl ⟨url, names, rfl, Option.some.inj h⟩
  | outsideOrigin => exact .inr (.inl (Option.some.inj h).symm)
  | urlByteLimit => exact .inr (.inr (Option.some.inj h).symm)
  | inert => cases h

omit [LinearOrder U] in
theorem counted_of_no_part {finding : Finding U}
    (h : finding = .outsideOrigin ∨ finding = .urlByteLimit) : finding.Counted limits := by
  rcases h with rfl | rfl <;> exact ⟨fun _ _ hpart => (by cases hpart), fun _ _ hpart => (by cases hpart),
    fun _ _ hpart => (by cases hpart)⟩

omit [LinearOrder U] in
theorem counted_findingOf {baseUrl : U} {element : Element} {finding : Finding U}
    (h : findingOf crate documentUrl limits baseUrl element = some finding) :
    finding.Counted limits := by
  cases element with
  | reference localName attrs =>
    obtain ⟨⟨attr, method⟩, hrt, h⟩ := Option.bind_eq_some_iff.mp h
    obtain ⟨reference, hreference, h⟩ := Option.bind_eq_some_iff.mp h
    rcases Resolved.finding_cases h with ⟨url, names, -, rfl⟩ | hnone
    · refine ⟨fun key part hpart hdrop => ?_, fun _ _ hpart => (by cases hpart),
        fun _ _ hpart => (by cases hpart)⟩
      obtain ⟨rfl, rfl⟩ := Prod.ext_iff.mp (Option.some.inj hpart)
      exact card_le_of_not_dropped limits hdrop
    · exact counted_of_no_part limits hnone
  | form attrs controls =>
    rcases Resolved.finding_cases h with ⟨url, names, -, rfl⟩ | hnone
    · refine ⟨fun key part hpart hdrop => ?_, fun key part hpart hdrop => ?_,
        fun key part hpart hdrop => ?_⟩
      · rw [Finding.routePart] at hpart
        split_ifs at hpart
        obtain ⟨rfl, rfl⟩ := Prod.ext_iff.mp (Option.some.inj hpart)
        exact card_le_of_not_dropped limits hdrop
      · obtain ⟨rfl, rfl⟩ := Prod.ext_iff.mp (Option.some.inj hpart)
        exact card_le_of_not_dropped limits hdrop
      · obtain ⟨rfl, rfl⟩ := Prod.ext_iff.mp (Option.some.inj hpart)
        change controlsDropped controls = false at hdrop
        rw [controlsDropped, Bool.or_eq_false_iff, decide_eq_false_iff_not,
          decide_eq_false_iff_not] at hdrop
        exact Nat.le_of_not_lt hdrop.2
    · exact counted_of_no_part limits hnone

omit [LinearOrder U] in
theorem counted_findingsIn (document : Handle) :
    ∀ finding ∈ findingsIn crate documentUrl limits document, finding.Counted limits := by
  intro finding hfind
  obtain ⟨element, -, hfnd⟩ := mem_filterMap.mp hfind
  exact counted_findingOf crate documentUrl limits hfnd

/-- Some value of a map that is kept has too many names. -/
def Overfull {K W : Type} [LinearOrder K] (limit most : Nat) (part : W → Finset String)
    (parts : List (K × W)) : Prop :=
  ∃ key ∈ (keys parts).sort.take limit, most < (unionOf part (valuesOf key parts)).card

theorem length_firstNames (names : Finset String) :
    (firstNames names).length = min hardMaxDiscoveryNamesPerReference names.card := by
  rw [firstNames, length_take, Finset.length_sort]

/-- Names left out in the end, or in a merge before, or of one reference: of the
values kept they are too many, or a merge was of one not kept. -/
theorem overfull_or_meets {K V W : Type} [LinearOrder K] {limit most : Nat} {fresh : W → V}
    {add : V → W → V} {names : V → List String} {part : W → Finset String} {parts : List (K × W)}
    (h : Tracks fresh add names part) {dropped : Prop} (hpar : ¬dropped → ∀ found ∈ parts,
      (part found.2).card ≤ hardMaxDiscoveryNamesPerReference) :
    (dropped ∨ Meets limit fresh add (Overflows names part) parts ∨
        ∃ key ∈ (keys parts).sort.take limit,
          most < (firstNames (unionOf part (valuesOf key parts))).length) ↔
      dropped ∨ Meets limit fresh add (Overflows names part) parts ∨ Overfull limit most part parts := by
  by_cases hdrop : dropped
  · exact iff_of_true (.inl hdrop) (.inl hdrop)
  refine or_congr_right ⟨?_, ?_⟩
  · rintro (hmeets | ⟨key, hkept, hmany⟩)
    · exact .inl hmeets
    · rw [length_firstNames] at hmany
      exact .inr ⟨key, hkept, by omega⟩
  · rintro (hmeets | ⟨key, hkept, hmany⟩)
    · exact .inl hmeets
    · by_cases hcrow : hardMaxDiscoveryNamesPerReference < (unionOf part (valuesOf key parts)).card
      · exact .inl (h.meets_kept hkept
          (fun value hvalue => hpar hdrop _ (mem_valuesOf.mp hvalue)) hcrow)
      · refine .inr ⟨key, hkept, ?_⟩
        rw [length_firstNames]
        omega

section Parsed

variable (document : Handle)

omit [LinearOrder U] in
/-- Where no finding has something left out, no part has too much. -/
theorem parts_counted {K W : Type} {part : Finding U → Option (K × W)} {dropped : Finding U → Bool}
    {proj : W → Finset String} {most : Nat} (hmost : most ≤ hardMaxDiscoveryNamesPerReference)
    (hcntd : ∀ finding : Finding U, finding.Counted limits → ∀ key value,
      part finding = some (key, value) → dropped finding = false → (proj value).card ≤ most)
    (hnone : ¬∃ finding ∈ findingsIn crate documentUrl limits document, dropped finding = true)
    {found : K × W} (hfnd : found ∈ (findingsIn crate documentUrl limits document).filterMap part) :
    (proj found.2).card ≤ hardMaxDiscoveryNamesPerReference := by
  obtain ⟨finding, hfind, hpart⟩ := mem_filterMap.mp hfnd
  have hdrop : dropped finding = false :=
    Bool.eq_false_iff.mpr fun hdrop => hnone ⟨finding, hfind, hdrop⟩
  exact (hcntd finding (counted_findingsIn crate documentUrl limits document finding hfind) _ _
    hpart hdrop).trans hmost

omit [LinearOrder U] in
theorem routeParts_counted {part : U × RoutePart}
    (hnone : ¬∃ finding ∈ findingsIn crate documentUrl limits document, finding.namesDropped = true)
    (hpart : part ∈ routeParts (findingsIn crate documentUrl limits document)) :
    part.2.2.card ≤ hardMaxDiscoveryNamesPerReference :=
  parts_counted crate documentUrl limits document limits.queryNames (fun _ h => h.route) hnone hpart

omit [LinearOrder U] in
theorem formParts_counted {part : FormKey U × FormPart}
    (hnone : ¬∃ finding ∈ findingsIn crate documentUrl limits document, finding.namesDropped = true)
    (hpart : part ∈ formParts (findingsIn crate documentUrl limits document)) :
    part.2.1.card ≤ hardMaxDiscoveryNamesPerReference :=
  parts_counted crate documentUrl limits document limits.queryNames (fun _ h => h.form) hnone hpart

omit [LinearOrder U] in
theorem formParts_controls_counted {part : FormKey U × FormPart}
    (hnone : ¬∃ finding ∈ findingsIn crate documentUrl limits document,
      finding.controlsDropped = true)
    (hpart : part ∈ formParts (findingsIn crate documentUrl limits document)) :
    part.2.2.card ≤ hardMaxDiscoveryNamesPerReference :=
  parts_counted crate documentUrl limits document le_rfl (fun _ h => h.controls) hnone hpart

omit [LinearOrder U] crate documentUrl limits document in
theorem or_interleave {d m m' o o' : Prop} :
    ((d ∨ m ∨ m') ∨ o) ∨ o' ↔ (d ∨ m ∨ o) ∨ d ∨ m' ∨ o' := by tauto

/-- **When the query flag is raised:** a reference or an action has names left
out, or a merge of too many, or what is kept. -/
theorem parse_queryLimit :
    (parseDocument crate documentUrl document limits).queryNameLimitReached = true ↔
      ((∃ finding ∈ findingsIn crate documentUrl limits document, finding.namesDropped = true) ∨
        Meets limits.maxReferencesPerDocument freshRoute addRoute
          (Overflows RouteAccumulator.queryParameterNames Prod.snd)
          (routeParts (findingsIn crate documentUrl limits document)) ∨
        Overfull limits.maxReferencesPerDocument limits.maxQueryParameterNames Prod.snd
          (routeParts (findingsIn crate documentUrl limits document))) ∨
      ((∃ finding ∈ findingsIn crate documentUrl limits document, finding.namesDropped = true) ∨
        Meets limits.maxForms freshForm addForm
          (Overflows FormAccumulator.queryParameterNames Prod.fst)
          (formParts (findingsIn crate documentUrl limits document)) ∨
        Overfull limits.maxForms limits.maxQueryParameterNames Prod.fst
          (formParts (findingsIn crate documentUrl limits document))) := by
  have h := observed_walk crate documentUrl limits document
  rw [← overfull_or_meets tracks_route fun hnone _ =>
      routeParts_counted crate documentUrl limits document hnone,
    ← overfull_or_meets tracks_formNames fun hnone _ =>
      formParts_counted crate documentUrl limits document hnone]
  unfold parseDocument finish
  dsimp only
  rw [Bool.or_eq_true, Bool.or_eq_true, h.queryLimit, h.routes_closed, h.forms_closed]
  simp only [any_map, any_eq_true, Function.comp_apply, decide_eq_true_eq, gt_iff_lt]
  exact or_interleave

/-- **When the control flag is raised.** -/
theorem parse_controlLimit :
    (parseDocument crate documentUrl document limits).controlLimitReached = true ↔
      (∃ finding ∈ findingsIn crate documentUrl limits document, finding.controlsDropped = true) ∨
        Meets limits.maxForms freshForm addForm (Overflows FormAccumulator.controlNames Prod.snd)
          (formParts (findingsIn crate documentUrl limits document)) ∨
        Overfull limits.maxForms limits.maxControlsPerForm Prod.snd
          (formParts (findingsIn crate documentUrl limits document)) := by
  have h := observed_walk crate documentUrl limits document
  rw [← overfull_or_meets tracks_formControls fun hnone _ =>
      formParts_controls_counted crate documentUrl limits document hnone]
  unfold parseDocument finish
  dsimp only
  rw [Bool.or_eq_true, h.controlLimit, h.forms_closed]
  simp only [any_map, any_eq_true, Function.comp_apply, decide_eq_true_eq, gt_iff_lt]
  exact or_assoc

end Parsed

end Termivar.Discovery
