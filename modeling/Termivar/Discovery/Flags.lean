/-
# When the flags depend on the order

A name that is left out in a merge raises a flag, and a merge happens only
while the entry is held: a route or form that is taken out of its map later may
have raised it, or not, as the elements came. So where one key has more names
than a set may hold, the flags of the names depend on the order, unless they are
raised in any order; all other flags never do (`flags_iff`).
-/
import Termivar.Discovery.Result

namespace Termivar.Discovery

open SortedPrefix List

/-! ### Documents of given elements -/

def baseNode (reference : String) : Handle :=
  .node (.element true "base" [⟨true, "href", reference⟩]) []

def inputNode (name : String) : Handle := .node (.element true "input" [⟨true, "name", name⟩]) []

/-- A form with the controls of the given names. -/
def formNode (attrs : List Attribute) (names : List String) : Handle :=
  .node (.element true "form" attrs) (names.map inputNode)

noncomputable def elementNode : Element → Handle
  | .reference localName attrs => .node (.element true localName attrs) []
  | .form attrs controls => formNode attrs controls.toList

/-- The nodes in a row, after a base if there is one. -/
def rowOf (base : Option String) (nodes : List Handle) : Handle :=
  .node .other (base.toList.map baseNode ++ nodes)

/-- A node with one element and no base. -/
def Shows (node : Handle) (element : Element) : Prop :=
  (node.visited fun _ => true).filterMap elementOf = [element] ∧
    (node.visited fun _ => true).findSome? (fun child => baseReference child.data) = none

theorem visitedAll_inputs (descend : NodeData → Bool) (names : List String) :
    Tree.visitedAll descend (names.map inputNode) = names.map inputNode := by
  induction names with
  | nil => rw [map_nil, Tree.visitedAll]
  | cons name names ih =>
    rw [map_cons, Tree.visitedAll, ih, Tree.visited_eq]
    have hleaf : (inputNode name).children = [] := rfl
    rw [hleaf, Tree.visitedAll, ite_self]
    rfl

theorem shows_form (attrs : List Attribute) (names : List String) :
    Shows (formNode attrs names) (.form attrs names) := by
  have hchs : (formNode attrs names).children = names.map inputNode := rfl
  have hcont : controlNames (formNode attrs names) = names := by
    have hname : (fun child : Handle => controlName child.data) ∘ inputNode = some := by
      funext name
      rfl
    rw [controlNames, hchs, visitedAll_inputs, filterMap_map, hname, filterMap_some]
  have helem : elementOf (formNode attrs names) = some (.form attrs names) := by
    change some (Element.form attrs (controlNames (formNode attrs names))) = _
    rw [hcont]
  have hnone : elementOf ∘ inputNode = fun _ => none := by
    funext name
    rfl
  rw [Shows, Tree.visited_eq, if_pos rfl, filterMap_cons_some helem, hchs,
    visitedAll_inputs, filterMap_map, hnone, filterMap_none]
  refine ⟨rfl, findSome?_eq_none_iff.mpr fun node hnode => ?_⟩
  rcases mem_cons.mp hnode with rfl | hnode
  · rfl
  · obtain ⟨name, -, rfl⟩ := mem_map.mp hnode
    rfl

theorem isSome_of_reference {localName : String} {attrs : List Attribute} {handle : Handle}
    (h : elementOf handle = some (.reference localName attrs)) :
    (routeAttribute localName).isSome = true := by
  unfold elementOf at h
  cases hdata : handle.data with
  | other =>
    rw [hdata] at h
    cases h
  | element inHtml found foundAttrs =>
    rw [hdata] at h
    cases inHtml with
    | false => cases h
    | true =>
      dsimp only at h
      split_ifs at h with hrt hform
      · injection h with h
        injection h with hname
        exact hname ▸ hrt
      · injection h with h
        cases h

theorem shows_elementNode {element : Element} {handle : Handle}
    (h : elementOf handle = some element) : Shows (elementNode element) element := by
  cases element with
  | form attrs controls =>
    have hshw := shows_form attrs controls.toList
    rwa [Multiset.coe_toList] at hshw
  | reference localName attrs =>
    have hrt := isSome_of_reference h
    have helem : elementOf (elementNode (.reference localName attrs)) =
        some (.reference localName attrs) := if_pos hrt
    have hbase : baseReference (elementNode (.reference localName attrs)).data = none := by
      refine if_neg fun hbase => ?_
      subst hbase
      exact absurd hrt (by decide)
    have hleaf : (elementNode (.reference localName attrs)).children = [] := rfl
    rw [Shows, Tree.visited_eq, if_pos rfl, filterMap_cons_some helem, hleaf,
      Tree.visitedAll, findSome?_cons, hbase]
    exact ⟨rfl, rfl⟩

variable (path : String) (forms : List (String × List String)) {es : List Element}

theorem visitedAll_shown {nodes : List Handle} (h : List.Forall₂ Shows nodes es) :
    (Tree.visitedAll (fun _ => true) nodes).filterMap elementOf = es ∧
    (Tree.visitedAll (fun _ => true) nodes).findSome? (fun node => baseReference node.data) =
      none := by
  induction h with
  | nil => exact ⟨rfl, rfl⟩
  | cons hfirst _ ih =>
    rw [Tree.visitedAll, filterMap_append, hfirst.1, ih.1, findSome?_append, hfirst.2, ih.2]
    exact ⟨rfl, rfl⟩

/-- **There is a document with a given base and given elements in a given order.** -/
theorem preorder_rowOf (base : Option String) {nodes : List Handle}
    (h : List.Forall₂ Shows nodes es) :
    (rowOf base nodes).preorder.filterMap elementOf = es ∧
    Tree.search baseReference [rowOf base nodes] = base := by
  have hroot : elementOf (rowOf base nodes) = none := rfl
  have hrootB : baseReference (rowOf base nodes).data = none := rfl
  have hchs : (rowOf base nodes).children = base.toList.map baseNode ++ nodes := rfl
  have hbase : (Tree.visitedAll (fun _ => true) (base.toList.map baseNode)).filterMap elementOf = [] ∧
      (Tree.visitedAll (fun _ => true) (base.toList.map baseNode)).findSome?
        (fun node => baseReference node.data) = base := by
    cases base with
    | none => exact ⟨rfl, rfl⟩
    | some reference => exact ⟨rfl, rfl⟩
  obtain ⟨hfilter, hfind⟩ := visitedAll_shown h
  constructor
  · rw [Tree.preorder, Tree.visited_eq, if_pos rfl, filterMap_cons_none hroot, hchs,
      Tree.visitedAll_append, filterMap_append, hfilter, hbase.1, nil_append]
  · rw [Tree.search_eq_findSome?, Tree.visitedAll_singleton, Tree.visited_eq, if_pos rfl,
      findSome?_cons, hrootB, hchs, Tree.visitedAll_append]
    dsimp only
    rw [findSome?_append, hfind, hbase.2, Option.or_none]

/-! ### Reordered documents -/

variable {U : Type} [LinearOrder U] (crate : UrlCrate U) (documentUrl : U)
  (limits : WebAssessmentLimits) (document : Handle)

/-- What is found in an element of the document. -/
def found (element : Element) : Option (Finding U) :=
  findingOf crate documentUrl limits (firstDocumentBase crate document documentUrl) element

omit [LinearOrder U] in
/-- **The elements of a document can come in any order.** -/
theorem exists_document (hes : es.Perm (document.preorder.filterMap elementOf)) :
    ∃ other, SameElements document other ∧ findingsIn crate documentUrl limits other =
        es.filterMap (found crate documentUrl limits document) := by
  have hshown : List.Forall₂ Shows (es.map elementNode) es := by
    rw [forall₂_map_left_iff, forall₂_same]
    intro element helem
    obtain ⟨handle, -, hhandle⟩ := mem_filterMap.mp (hes.mem_iff.mp helem)
    exact shows_elementNode hhandle
  obtain ⟨hfilter, hbase⟩ := preorder_rowOf (Tree.search baseReference [document]) hshown
  have hsame : SameElements document
      (rowOf (Tree.search baseReference [document]) (es.map elementNode)) := by
    refine ⟨hbase.symm, ?_⟩
    rw [elements, elements, hfilter]
    exact Multiset.coe_eq_coe.mpr hes.symm
  refine ⟨_, hsame, ?_⟩
  rw [findingsIn, hfilter, ← hsame.firstDocumentBase]
  rfl

/-- Where a finding goes in the maps: a route before the forms of its URL. -/
def Finding.place : Finding U → WithBot (FormKey U)
  | .route url _ _ _ => ((toLex (url, .get) : FormKey U) : WithBot (FormKey U))
  | .form key _ _ _ _ => (key : WithBot (FormKey U))
  | _ => ⊥

omit [LinearOrder U] in
theorem place_routePart {finding : Finding U} {part : U × RoutePart}
    (h : finding.routePart = some part) :
    ∃ key : FormKey U, finding.place = key ∧ (ofLex key).1 = part.1 := by
  cases finding with
  | outsideOrigin => cases h
  | urlByteLimit => cases h
  | route url method names dropped =>
    cases h
    exact ⟨_, rfl, rfl⟩
  | form key names controls dropped controlsDropped =>
    rw [Finding.routePart] at h
    split_ifs at h
    cases h
    exact ⟨key, rfl, rfl⟩

omit [LinearOrder U] in
theorem place_formPart {finding : Finding U} {part : FormKey U × FormPart}
    (h : finding.formPart = some part) : finding.place = part.1 := by
  cases finding with
  | form key names controls dropped controlsDropped =>
    cases h
    rfl
  | _ => cases h

def place (element : Element) : WithBot (FormKey U) :=
  ((found crate documentUrl limits document element).map Finding.place).getD ⊥

/-- **There is a document with the same elements whose routes and forms come in
ascending order.** -/
theorem exists_ascending : ∃ other, SameElements document other ∧
    (routeParts (findingsIn crate documentUrl limits other)).Pairwise
      (fun left right => left.1 ≤ right.1) ∧
    (formParts (findingsIn crate documentUrl limits other)).Pairwise
      fun left right => left.1 ≤ right.1 := by
  let key := place crate documentUrl limits document
  have htot : Std.Total fun left right => key left ≤ key right := ⟨fun _ _ => le_total _ _⟩
  have htrans : IsTrans Element fun left right => key left ≤ key right := ⟨fun _ _ _ => le_trans⟩
  have hsort := pairwise_insertionSort (fun left right => key left ≤ key right)
    (document.preorder.filterMap elementOf)
  obtain ⟨other, hsame, hfin⟩ := exists_document crate documentUrl limits document
    (perm_insertionSort (fun left right => key left ≤ key right) _)
  have hplaces : (findingsIn crate documentUrl limits other).Pairwise
      fun left right => left.place ≤ right.place := by
    rw [hfin, pairwise_filterMap]
    refine hsort.imp fun h left hleft right hright => ?_
    simpa [key, place, Option.mem_def.mp hleft, Option.mem_def.mp hright] using h
  refine ⟨other, hsame, ?_, ?_⟩
  · rw [routeParts, pairwise_filterMap]
    refine hplaces.imp fun h left hleft right hright => ?_
    obtain ⟨leftKey, hlef, hleftUrl⟩ := place_routePart hleft
    obtain ⟨rightKey, hrigh, hrig⟩ := place_routePart hright
    rw [hlef, hrigh, WithBot.coe_le_coe] at h
    rw [← hleftUrl, ← hrig]
    exact Prod.Lex.monotone_fst _ _ h
  · rw [formParts, pairwise_filterMap]
    refine hplaces.imp fun h left hleft right hright => ?_
    rwa [place_formPart hleft, place_formPart hright, WithBot.coe_le_coe] at h

/-- What is found in the element is part of what is found for the key. -/
def isFor {K W : Type} [LinearOrder K] (part : Finding U → Option (K × W)) (key : K)
    (element : Element) : Bool :=
  ((found crate documentUrl limits document element).bind part).any fun found => found.1 = key

omit [LinearOrder U] in
/-- **There is a document with the same elements where all that belongs to one key
comes first.** -/
theorem exists_first {K W : Type} [LinearOrder K] (part : Finding U → Option (K × W)) (key : K) :
    ∃ other first rest, SameElements document other ∧
      (findingsIn crate documentUrl limits other).filterMap part = first ++ rest ∧
      (∀ found ∈ first, found.1 = key) ∧ ∀ found ∈ rest, found.1 ≠ key := by
  obtain ⟨other, hsame, hfin⟩ := exists_document crate documentUrl limits document
    (filter_append_perm (isFor crate documentUrl limits document part key) _)
  refine ⟨other, _, _, hsame, by rw [hfin, filterMap_append, filterMap_append], ?_, ?_⟩
  · intro value hvalue
    obtain ⟨finding, hfinding, hpart⟩ := mem_filterMap.mp hvalue
    obtain ⟨element, helem, hfnd⟩ := mem_filterMap.mp hfinding
    have hfor := (mem_filter.mp helem).2
    simpa [isFor, hfnd, hpart] using hfor
  · intro value hvalue
    obtain ⟨finding, hfinding, hpart⟩ := mem_filterMap.mp hvalue
    obtain ⟨element, helem, hfnd⟩ := mem_filterMap.mp hfinding
    have hfor := (mem_filter.mp helem).2
    simpa [isFor, hfnd, hpart] using hfor

/-! ### What raises the flags in any order -/

/-- A query name is left out of a reference or an action, or of a route or form
that is kept. -/
def QueryRaised (findings : List (Finding U)) : Prop :=
  (∃ finding ∈ findings, finding.namesDropped = true) ∨
  Overfull limits.maxReferencesPerDocument limits.maxQueryParameterNames Prod.snd
    (routeParts findings) ∨
  Overfull limits.maxForms limits.maxQueryParameterNames Prod.fst (formParts findings)

/-- A control is left out of a form, or of forms merged that are kept. -/
def ControlRaised (findings : List (Finding U)) : Prop :=
  (∃ finding ∈ findings, finding.controlsDropped = true) ∨
  Overfull limits.maxForms limits.maxControlsPerForm Prod.snd (formParts findings)

/-- More names for one key than a set may hold, in a map that may hold a key. -/
def Crowded {K W : Type} [LinearOrder K] (limit : Nat) (part : W → Finset String)
    (parts : List (K × W)) : Prop :=
  0 < limit ∧ ∃ key ∈ keys parts, hardMaxDiscoveryNamesPerReference <
    (unionOf part (valuesOf key parts)).card

/-- Whatever might raise a flag of the names is left out in any order. -/
structure OrderFree (findings : List (Finding U)) : Prop where
  query : Crowded limits.maxReferencesPerDocument Prod.snd (routeParts findings) ∨
    Crowded limits.maxForms Prod.fst (formParts findings) → QueryRaised limits findings
  control : Crowded limits.maxForms Prod.snd (formParts findings) → ControlRaised limits findings

section Perm

variable {K W : Type} [LinearOrder K] {parts parts' : List (K × W)} {findings findings' : List (Finding U)}

theorem overfull_perm (limit most : Nat) (part : W → Finset String) (h : parts.Perm parts') :
    Overfull limit most part parts ↔ Overfull limit most part parts' := by
  rw [Overfull, Overfull, keys_perm h]
  simp only [unionOf_perm (valuesOf_perm h _)]

theorem crowded_perm (limit : Nat) (part : W → Finset String) (h : parts.Perm parts') :
    Crowded limit part parts ↔ Crowded limit part parts' := by
  rw [Crowded, Crowded, keys_perm h]
  simp only [unionOf_perm (valuesOf_perm h _)]

theorem queryRaised_perm (h : findings.Perm findings') :
    QueryRaised limits findings ↔ QueryRaised limits findings' := by
  rw [QueryRaised, QueryRaised, overfull_perm _ _ _ (routeParts_perm h),
    overfull_perm _ _ _ (formParts_perm h)]
  simp only [h.mem_iff]

theorem controlRaised_perm (h : findings.Perm findings') :
    ControlRaised limits findings ↔ ControlRaised limits findings' := by
  rw [ControlRaised, ControlRaised, overfull_perm _ _ _ (formParts_perm h)]
  simp only [h.mem_iff]

end Perm

/-- A key with more names than a map allows is one with too many for its set. -/
theorem Overfull.of_crowded {K W : Type} [LinearOrder K] {limit most : Nat} {part : W → Finset String}
    {parts : List (K × W)} (hmost : most ≤ hardMaxDiscoveryNamesPerReference)
    (h : ∃ key ∈ (keys parts).sort.take limit,
      hardMaxDiscoveryNamesPerReference < (unionOf part (valuesOf key parts)).card) :
    Overfull limit most part parts := by
  obtain ⟨key, hkept, hmany⟩ := h
  exact ⟨key, hkept, hmost.trans_lt hmany⟩

/-- **Where routes and forms come in ascending order, the query flag is raised
only by what raises it in any order.** -/
theorem queryRaised_of_ascending
    (hroutes : (routeParts (findingsIn crate documentUrl limits document)).Pairwise
      fun left right => left.1 ≤ right.1)
    (hfm : (formParts (findingsIn crate documentUrl limits document)).Pairwise
      fun left right => left.1 ≤ right.1)
    (h : (parseDocument crate documentUrl document limits).queryNameLimitReached = true) :
    QueryRaised limits (findingsIn crate documentUrl limits document) := by
  rw [parse_queryLimit] at h
  rcases h with (hdrop | hmeets | hover) | hdrop | hmeets | hover
  · exact .inl hdrop
  · exact .inr (.inl (.of_crowded limits.queryNames (tracks_route.overflow_of_ascending hroutes hmeets)))
  · exact .inr (.inl hover)
  · exact .inl hdrop
  · exact .inr (.inr (.of_crowded limits.queryNames
      (tracks_formNames.overflow_of_ascending hfm hmeets)))
  · exact .inr (.inr hover)

theorem controlRaised_of_ascending
    (hfm : (formParts (findingsIn crate documentUrl limits document)).Pairwise
      fun left right => left.1 ≤ right.1)
    (h : (parseDocument crate documentUrl document limits).controlLimitReached = true) :
    ControlRaised limits (findingsIn crate documentUrl limits document) := by
  rw [parse_controlLimit] at h
  rcases h with hdrop | hmeets | hover
  · exact .inl hdrop
  · exact .inr (.of_crowded limits.controls (tracks_formControls.overflow_of_ascending hfm hmeets))
  · exact .inr hover

theorem queryLimit_of_raised (h : QueryRaised limits (findingsIn crate documentUrl limits document)) :
    (parseDocument crate documentUrl document limits).queryNameLimitReached = true := by
  rw [parse_queryLimit]
  rcases h with hdrop | hroutes | hfm
  · exact .inl (.inl hdrop)
  · exact .inl (.inr (.inr hroutes))
  · exact .inr (.inr (.inr hfm))

theorem controlLimit_of_raised
    (h : ControlRaised limits (findingsIn crate documentUrl limits document)) :
    (parseDocument crate documentUrl document limits).controlLimitReached = true := by
  rw [parse_controlLimit]
  rcases h with hdrop | hfm
  · exact .inl hdrop
  · exact .inr (.inr hfm)

/-- A flag that is raised is raised in any order, or one key has too many names. -/
theorem raised_or_crowded_of_queryLimit
    (h : (parseDocument crate documentUrl document limits).queryNameLimitReached = true) :
    QueryRaised limits (findingsIn crate documentUrl limits document) ∨
      Crowded limits.maxReferencesPerDocument Prod.snd
        (routeParts (findingsIn crate documentUrl limits document)) ∨
      Crowded limits.maxForms Prod.fst (formParts (findingsIn crate documentUrl limits document)) := by
  rw [parse_queryLimit] at h
  rcases h with (hdrop | hmeets | hover) | hdrop | hmeets | hover
  · exact .inl (.inl hdrop)
  · exact .inr (.inl (tracks_route.exists_crowded hmeets))
  · exact .inl (.inr (.inl hover))
  · exact .inl (.inl hdrop)
  · exact .inr (.inr (tracks_formNames.exists_crowded hmeets))
  · exact .inl (.inr (.inr hover))

theorem raised_or_crowded_of_controlLimit
    (h : (parseDocument crate documentUrl document limits).controlLimitReached = true) :
    ControlRaised limits (findingsIn crate documentUrl limits document) ∨
      Crowded limits.maxForms Prod.snd
        (formParts (findingsIn crate documentUrl limits document)) := by
  rw [parse_controlLimit] at h
  rcases h with hdrop | hmeets | hover
  · exact .inl (.inl hdrop)
  · exact .inr (tracks_formControls.exists_crowded hmeets)
  · exact .inl (.inr hover)

omit [LinearOrder U] in
/-- **One key with too many names that comes first meets them in a merge.** -/
theorem exists_meets {K V W : Type} [LinearOrder K] {limit : Nat} {fresh : W → V} {add : V → W → V}
    {names : V → List String} {proj : W → Finset String} (htracks : Tracks fresh add names proj)
    (part : Finding U → Option (K × W))
    (hpar : ∀ found ∈ (findingsIn crate documentUrl limits document).filterMap part,
      (proj found.2).card ≤ hardMaxDiscoveryNamesPerReference)
    (hcrow : Crowded limit proj ((findingsIn crate documentUrl limits document).filterMap part)) :
    ∃ other, SameElements document other ∧ Meets limit fresh add (Overflows names proj)
      ((findingsIn crate documentUrl limits other).filterMap part) := by
  obtain ⟨hlimit, key, -, hmany⟩ := hcrow
  obtain ⟨other, first, rest, hsame, hfin, hfirst, hrest⟩ :=
    exists_first crate documentUrl limits document part key
  have hperm := (hsame.findingsIn_perm crate documentUrl limits).filterMap part
  rw [hfin] at hperm
  have hnone : valuesOf key rest = [] := by
    rw [valuesOf, map_eq_nil_iff, filter_eq_nil_iff]
    exact fun found hfnd hkey => hrest found hfnd (of_decide_eq_true hkey)
  have hvalues : valuesOf key (first ++ rest) = valuesOf key first := by
    rw [valuesOf, filter_append, map_append]
    exact (congrArg _ hnone).trans (append_nil _)
  rw [unionOf_perm (valuesOf_perm hperm key), hvalues] at hmany
  refine ⟨other, hsame, ?_⟩
  rw [hfin]
  refine htracks.meets_first hlimit hfirst (fun value hvalue => ?_) hmany
  exact hpar _ (hperm.mem_iff.mpr (mem_append_left _ (mem_valuesOf.mp hvalue)))

/-- **Too many query names for one key raise the flag in some order.** -/
theorem exists_queryLimit (hcrow : Crowded limits.maxReferencesPerDocument Prod.snd
      (routeParts (findingsIn crate documentUrl limits document)) ∨
    Crowded limits.maxForms Prod.fst (formParts (findingsIn crate documentUrl limits document))) :
    ∃ other, SameElements document other ∧
      (parseDocument crate documentUrl other limits).queryNameLimitReached = true := by
  by_cases hdrop : ∃ finding ∈ findingsIn crate documentUrl limits document,
      finding.namesDropped = true
  · exact ⟨document, ⟨rfl, rfl⟩, queryLimit_of_raised _ _ _ _ (.inl hdrop)⟩
  · simp only [parse_queryLimit]
    rcases hcrow with hcrow | hcrow
    · obtain ⟨other, hsame, hmeets⟩ := exists_meets crate documentUrl limits document tracks_route
        Finding.routePart (fun found => routeParts_counted crate documentUrl limits document hdrop)
        hcrow
      exact ⟨other, hsame, .inl (.inr (.inl hmeets))⟩
    · obtain ⟨other, hsame, hmeets⟩ := exists_meets crate documentUrl limits document tracks_formNames
        Finding.formPart (fun found => formParts_counted crate documentUrl limits document hdrop)
        hcrow
      exact ⟨other, hsame, .inr (.inr (.inl hmeets))⟩

/-- **Too many controls for one key raise the flag in some order.** -/
theorem exists_controlLimit (hcrow : Crowded limits.maxForms Prod.snd
      (formParts (findingsIn crate documentUrl limits document))) :
    ∃ other, SameElements document other ∧
      (parseDocument crate documentUrl other limits).controlLimitReached = true := by
  by_cases hdrop : ∃ finding ∈ findingsIn crate documentUrl limits document,
      finding.controlsDropped = true
  · exact ⟨document, ⟨rfl, rfl⟩, controlLimit_of_raised _ _ _ _ (.inl hdrop)⟩
  · obtain ⟨other, hsame, hmeets⟩ := exists_meets crate documentUrl limits document
      tracks_formControls Finding.formPart
      (fun found => formParts_controls_counted crate documentUrl limits document hdrop) hcrow
    exact ⟨other, hsame, (parse_controlLimit _ _ _ _).mpr (.inr (.inl hmeets))⟩

/-! ### The flags -/

/-- The flags and the count of two results agree. -/
structure SameFlags (result other : ParsedDocument U) : Prop where
  queryName : result.queryNameLimitReached = other.queryNameLimitReached
  control : result.controlLimitReached = other.controlLimitReached
  route : result.routeLimitReached = other.routeLimitReached
  form : result.formLimitReached = other.formLimitReached
  urlByte : result.urlByteLimitReached = other.urlByteLimitReached
  outsideOrigin : result.outsideOriginReferenceCount = other.outsideOriginReferenceCount

variable {crate documentUrl limits document} {other : Handle}

/-- **Only the flags of the names may depend on the order.** -/
theorem sameFlags_of_names (hsame : SameElements document other)
    (hqry : (parseDocument crate documentUrl document limits).queryNameLimitReached = true ↔
      (parseDocument crate documentUrl other limits).queryNameLimitReached = true)
    (hcontrol : (parseDocument crate documentUrl document limits).controlLimitReached = true ↔
      (parseDocument crate documentUrl other limits).controlLimitReached = true) :
    SameFlags (parseDocument crate documentUrl document limits)
      (parseDocument crate documentUrl other limits) := by
  have hperm := hsame.findingsIn_perm crate documentUrl limits
  have hobs := observed_walk crate documentUrl limits document
  have hoth := observed_walk crate documentUrl limits other
  refine ⟨Bool.eq_iff_iff.mpr hqry, Bool.eq_iff_iff.mpr hcontrol, ?_, ?_, ?_, ?_⟩
  · refine Bool.eq_iff_iff.mpr (hobs.routeLimit.trans ?_)
    rw [keys_perm (routeParts_perm hperm)]
    exact hoth.routeLimit.symm
  · refine Bool.eq_iff_iff.mpr (hobs.formLimit.trans ?_)
    rw [keys_perm (formParts_perm hperm)]
    exact hoth.formLimit.symm
  · refine Bool.eq_iff_iff.mpr (hobs.urlByteLimit.trans ?_)
    rw [hperm.mem_iff]
    exact hoth.urlByteLimit.symm
  · refine hobs.outsideOrigin.trans ?_
    rw [hperm.count_eq]
    exact hoth.outsideOrigin.symm

variable (h : OrderFree limits (findingsIn crate documentUrl limits document))

include h

theorem OrderFree.queryLimit_iff :
    (parseDocument crate documentUrl document limits).queryNameLimitReached = true ↔
      QueryRaised limits (findingsIn crate documentUrl limits document) :=
  ⟨fun hraised => (raised_or_crowded_of_queryLimit _ _ _ _ hraised).elim id h.query,
    queryLimit_of_raised _ _ _ _⟩

theorem OrderFree.controlLimit_iff :
    (parseDocument crate documentUrl document limits).controlLimitReached = true ↔
      ControlRaised limits (findingsIn crate documentUrl limits document) :=
  ⟨fun hraised => (raised_or_crowded_of_controlLimit _ _ _ _ hraised).elim id h.control,
    controlLimit_of_raised _ _ _ _⟩

theorem OrderFree.of_sameElements (hsame : SameElements document other) :
    OrderFree limits (findingsIn crate documentUrl limits other) := by
  have hperm := hsame.findingsIn_perm crate documentUrl limits
  constructor
  · rw [← crowded_perm _ _ (routeParts_perm hperm), ← crowded_perm _ _ (formParts_perm hperm),
      ← queryRaised_perm limits hperm]
    exact h.query
  · rw [← crowded_perm _ _ (formParts_perm hperm), ← controlRaised_perm limits hperm]
    exact h.control

omit h

/-- **The flags do not depend on the order of the elements exactly if no route or
form has more names than a set may hold, or the flag of these names is raised in
any order.** -/
theorem flags_iff (crate : UrlCrate U) (documentUrl : U) (limits : WebAssessmentLimits)
    (document : Handle) :
    (∀ other, SameElements document other →
      SameFlags (parseDocument crate documentUrl document limits)
        (parseDocument crate documentUrl other limits)) ↔
      OrderFree limits (findingsIn crate documentUrl limits document) := by
  constructor
  · intro h
    obtain ⟨ascending, hasc, hroutes, hfm⟩ :=
      exists_ascending crate documentUrl limits document
    have hperm := hasc.findingsIn_perm crate documentUrl limits
    constructor
    · intro hcrow
      obtain ⟨first, hfirst, hraised⟩ := exists_queryLimit crate documentUrl limits document hcrow
      rw [← (h first hfirst).queryName, (h ascending hasc).queryName] at hraised
      exact (queryRaised_perm limits hperm).mpr
        (queryRaised_of_ascending crate documentUrl limits ascending hroutes hfm hraised)
    · intro hcrow
      obtain ⟨first, hfirst, hraised⟩ := exists_controlLimit crate documentUrl limits document hcrow
      rw [← (h first hfirst).control, (h ascending hasc).control] at hraised
      exact (controlRaised_perm limits hperm).mpr
        (controlRaised_of_ascending crate documentUrl limits ascending hfm hraised)
  · intro h other hsame
    have hoth := h.of_sameElements hsame
    have hperm := hsame.findingsIn_perm crate documentUrl limits
    refine sameFlags_of_names hsame ?_ ?_
    · rw [h.queryLimit_iff, hoth.queryLimit_iff, queryRaised_perm limits hperm]
    · rw [h.controlLimit_iff, hoth.controlLimit_iff, controlRaised_perm limits hperm]

/-! ### Documents with one key too full -/

def letters : List Char :=
  ['a', 'b', 'c', 'd', 'e', 'f', 'g', 'h', 'i', 'j', 'k', 'l', 'm', 'n', 'o', 'p']

/-- As many names as a set may hold. -/
def manyNames : List String := (letters ×ˢ letters).map fun pair => String.ofList [pair.1, pair.2]

def crowdedLimits : WebAssessmentLimits where
  maxReferencesPerDocument := hardMaxWebAssessmentReferencesPerDocument
  maxCanonicalUrlBytes := hardMaxWebAssessmentCanonicalUrlBytes
  maxForms := 1
  maxControlsPerForm := hardMaxWebAssessmentControlsPerForm
  maxQueryParameterNames := hardMaxWebAssessmentQueryNames
  references := by decide
  canonicalUrl := by decide
  forms := sampleLimits.forms
  controls := by decide
  queryNames := by decide

def crowdedUrl : SampleUrl := sampleOf path none none

def crowdedKey : FormKey SampleUrl := toLex (crowdedUrl path, .post)

def crowdedAttrs : List Attribute := [⟨true, "action", path⟩, ⟨true, "method", "post"⟩]

/-- A document of forms to be posted. -/
def crowdedForms : Handle :=
  rowOf none (forms.map fun form => formNode (crowdedAttrs form.1) form.2)

/-- The full key, one more name for it, and a key before it. -/
def crowdedFirst : Handle := crowdedForms [("/z", manyNames), ("/z", ["z"]), ("/a", [])]

/-- The key before it comes first. -/
def crowdedLast : Handle := crowdedForms [("/a", []), ("/z", manyNames), ("/z", ["z"])]

theorem letters_plain {c : Char} (h : c ∈ letters) : isControl c = false ∧ c.utf8Size = 1 := by
  have hplain := all_eq_true.mp
    (by decide : letters.all (fun c => !isControl c && decide (c.utf8Size = 1)) = true) c h
  simpa using hplain

theorem mem_manyNames {name : String} (h : name ∈ manyNames) :
    ∃ a ∈ letters, ∃ b ∈ letters, String.ofList [a, b] = name := by
  obtain ⟨⟨a, b⟩, hpair, rfl⟩ := mem_map.mp h
  obtain ⟨ha, hb⟩ := mem_product.mp hpair
  exact ⟨a, ha, b, hb, rfl⟩

theorem card_manyNames : manyNames.toFinset.card = 256 := by
  have hnd : manyNames.Nodup := by
    refine (List.Nodup.product (by decide) (by decide)).map fun pair pair' h => ?_
    have hpair := String.ofList_injective h
    rw [cons.injEq, cons.injEq] at hpair
    exact Prod.ext hpair.1 hpair.2.1
  rw [toFinset_card_of_nodup hnd, manyNames, length_map, length_product]
  rfl

theorem z_not_mem : "z" ∉ manyNames.toFinset := by
  intro hmem
  obtain ⟨a, -, b, -, hz⟩ := mem_manyNames (mem_toFinset.mp hmem)
  have hlength : ("z".toList.length = 1) := by decide
  rw [← hz, String.toList_ofList] at hlength
  cases hlength

theorem accepted_manyNames : ∀ name ∈ manyNames, nameDisposition name = .accepted := by
  intro name hname
  obtain ⟨a, ha, b, hb, rfl⟩ := mem_manyNames hname
  obtain ⟨hcontrol, hsize⟩ := letters_plain ha
  obtain ⟨hcontrol', hsize'⟩ := letters_plain hb
  have hbs : (String.ofList [a, b]).utf8ByteSize = 2 := by
    rw [byteSize_ofList, map_cons, map_cons, hsize, hsize']
    rfl
  have hemp : (String.ofList [a, b]).isEmpty = false := by
    rw [String.isEmpty_eq_false_iff]
    intro h
    rw [h] at hbs
    cases hbs
  rw [nameDisposition, hemp, String.toList_ofList, any_cons, any_cons, hcontrol, hcontrol', hbs]
  rfl

/-- What is found in a form. -/
def crowdedFinding (form : String × List String) : Option (Finding SampleUrl) :=
  findingOf sampleCrate (crowdedUrl "/") crowdedLimits (crowdedUrl "/")
    (.form (crowdedAttrs form.1) form.2)

def plainFinding (controls : Finset String) : Finding SampleUrl :=
  .form (crowdedKey path) ∅ controls false false

theorem plain_found {path : String} {names : List String}
    (hresv : resolveAction sampleCrate (crowdedUrl "/") crowdedLimits (crowdedUrl "/")
      (crowdedAttrs path) = .accepted (crowdedUrl path) [])
    (hacc : ∀ name ∈ names, nameDisposition name = .accepted)
    (hfew : names.toFinset.card ≤ hardMaxDiscoveryNamesPerReference) :
    crowdedFinding (path, names) = some (plainFinding path names.toFinset) := by
  have hcont : acceptedControls (names : Multiset String) = names.toFinset := by
    rw [acceptedControls, Multiset.filter_coe, filter_eq_self.mpr fun name hname =>
      decide_eq_true (hacc name hname)]
    rfl
  have hdrop : controlsDropped (names : Multiset String) = false := by
    rw [controlsDropped, hcont, Bool.or_eq_false_iff, decide_eq_false_iff_not,
      decide_eq_false_iff_not, Multiset.countP_pos]
    refine ⟨?_, Nat.not_lt.mpr hfew⟩
    rintro ⟨name, hname, hlong⟩
    rw [hacc name (Multiset.mem_coe.mp hname)] at hlong
    cases hlong
  have hmethod : formMethod (crowdedAttrs path) = .post := by
    have hpost : htmlAttribute (crowdedAttrs path) "method" = some "post" := by
      simp [crowdedAttrs, htmlAttribute]
    rw [formMethod, hpost]
    exact if_pos (by decide)
  rw [crowdedFinding, findingOf, hresv, Resolved.finding, hcont, hdrop, hmethod]
  rfl

theorem shown_crowdedForms :
    (crowdedForms forms).preorder.filterMap elementOf =
        forms.map (fun form => .form (crowdedAttrs form.1) form.2) ∧
      Tree.search baseReference [crowdedForms forms] = none := by
  refine preorder_rowOf none ?_
  rw [forall₂_map_left_iff, forall₂_map_right_iff, forall₂_same]
  exact fun form _ => shows_form _ _

theorem findingsIn_crowdedForms :
    findingsIn sampleCrate (crowdedUrl "/") crowdedLimits (crowdedForms forms) =
      forms.filterMap crowdedFinding := by
  obtain ⟨hfilter, hbase⟩ := shown_crowdedForms forms
  have hdoc : firstDocumentBase sampleCrate (crowdedForms forms) (crowdedUrl "/") =
      crowdedUrl "/" := by rw [firstDocumentBase, hbase]
  rw [findingsIn, hdoc, hfilter, filterMap_map]
  exact congrArg (filterMap · forms) (funext fun form => by
    rw [Function.comp_apply, crowdedFinding])

theorem sameElements_crowded : SameElements crowdedFirst crowdedLast := by
  obtain ⟨hfirst, hfirs⟩ := shown_crowdedForms [("/z", manyNames), ("/z", ["z"]), ("/a", [])]
  obtain ⟨hlast, hlas⟩ := shown_crowdedForms [("/a", []), ("/z", manyNames), ("/z", ["z"])]
  refine ⟨hfirs.trans hlas.symm, ?_⟩
  rw [elements, elements, crowdedFirst, crowdedLast, hfirst, hlast, Multiset.coe_eq_coe]
  refine List.Perm.map _ ?_
  exact (perm_append_comm : ([_, _] ++ [_]).Perm ([_] ++ [_, _]))

theorem many_found : crowdedFinding ("/z", manyNames) = some (plainFinding "/z" manyNames.toFinset) :=
  plain_found (by decide) accepted_manyNames card_manyNames.le

theorem more_found : crowdedFinding ("/z", ["z"]) = some (plainFinding "/z" {"z"}) :=
  plain_found (by decide) (by simp; decide +kernel) (by decide)

theorem other_found : crowdedFinding ("/a", []) = some (plainFinding "/a" ∅) :=
  plain_found (by decide) (by simp) (by decide)

theorem formParts_crowdedFirst :
    formParts (findingsIn sampleCrate (crowdedUrl "/") crowdedLimits crowdedFirst) =
      [(crowdedKey "/z", ∅, manyNames.toFinset), (crowdedKey "/z", ∅, {"z"})] ++
        [(crowdedKey "/a", ∅, ∅)] := by
  rw [crowdedFirst, findingsIn_crowdedForms, filterMap_cons_some many_found,
    filterMap_cons_some more_found, filterMap_cons_some other_found, filterMap_nil]
  rfl

theorem findingsIn_crowdedLast :
    findingsIn sampleCrate (crowdedUrl "/") crowdedLimits crowdedLast =
      [plainFinding "/a" ∅, plainFinding "/z" manyNames.toFinset, plainFinding "/z" {"z"}] := by
  rw [crowdedLast, findingsIn_crowdedForms, filterMap_cons_some other_found,
    filterMap_cons_some many_found, filterMap_cons_some more_found, filterMap_nil]

theorem formParts_crowdedLast :
    formParts (findingsIn sampleCrate (crowdedUrl "/") crowdedLimits crowdedLast) =
      [(crowdedKey "/a", ∅, ∅), (crowdedKey "/z", ∅, manyNames.toFinset),
        (crowdedKey "/z", ∅, {"z"})] := by
  rw [findingsIn_crowdedLast]
  rfl

theorem lt_crowdedKey : crowdedKey "/a" < crowdedKey "/z" := by
  rw [crowdedKey, crowdedKey, Prod.Lex.toLex_lt_toLex]
  exact Or.inl (by decide)

/-- With the full key first its controls are merged. -/
theorem crowdedFirst_raised :
    (parseDocument sampleCrate (crowdedUrl "/") crowdedFirst crowdedLimits).controlLimitReached =
      true := by
  rw [parse_controlLimit, formParts_crowdedFirst]
  have hvalues : valuesOf (crowdedKey "/z")
      [(crowdedKey "/z", ((∅, manyNames.toFinset) : FormPart)), (crowdedKey "/z", (∅, {"z"}))] =
        [((∅, manyNames.toFinset) : FormPart), (∅, {"z"})] := by
    simp [valuesOf]
  have hunion : unionOf Prod.snd [((∅, manyNames.toFinset) : FormPart), (∅, {"z"})] =
      insert "z" manyNames.toFinset := by
    simp [unionOf, Finset.union_comm]
  have hfirst : ∀ found ∈ [(crowdedKey "/z", ((∅, manyNames.toFinset) : FormPart)),
      (crowdedKey "/z", (∅, {"z"}))], found.1 = crowdedKey "/z" := by simp
  refine .inr (.inl (tracks_formControls.meets_first Nat.one_pos hfirst ?_ ?_))
  · rw [hvalues]
    refine forall_mem_cons.mpr ⟨card_manyNames.le, forall_mem_singleton.mpr ?_⟩
    decide
  · rw [hvalues, hunion, Finset.card_insert_of_notMem z_not_mem, card_manyNames]
    decide

/-- With the other key first there is never room for it. -/
theorem crowdedLast_not_raised : ¬ControlRaised crowdedLimits
    (findingsIn sampleCrate (crowdedUrl "/") crowdedLimits crowdedLast) := by
  rintro (⟨finding, hfinding, hdrop⟩ | ⟨key, hkept, hmany⟩)
  · have hnone : ∀ finding ∈ [plainFinding "/a" ∅, plainFinding "/z" manyNames.toFinset,
        plainFinding "/z" {"z"}], finding.controlsDropped = false := by
      simp [plainFinding, Finding.controlsDropped]
    rw [findingsIn_crowdedLast] at hfinding
    exact Bool.false_ne_true ((hnone finding hfinding).symm.trans hdrop)
  · rw [formParts_crowdedLast] at hkept hmany
    obtain ⟨hkey, hbel⟩ := mem_take_sort.mp hkept
    have hfirst : key = crowdedKey "/a" := by
      obtain ⟨part, hpart, rfl⟩ := mem_keys.mp hkey
      by_contra hoth
      have hz : part.1 = crowdedKey "/z" := by
        simp only [mem_cons, not_mem_nil, or_false] at hpart
        rcases hpart with rfl | rfl | rfl
        · exact absurd rfl hoth
        · rfl
        · rfl
      refine absurd (Nat.lt_one_iff.mp hbel) (Finset.card_ne_zero_of_mem (a := crowdedKey "/a") ?_)
      rw [Finset.mem_filter, hz]
      exact ⟨mem_keys.mpr ⟨_, mem_cons_self, rfl⟩, lt_crowdedKey⟩
    have hvalues : valuesOf (crowdedKey "/a") [(crowdedKey "/a", ((∅, ∅) : FormPart)),
        (crowdedKey "/z", (∅, manyNames.toFinset)), (crowdedKey "/z", (∅, {"z"}))] = [(∅, ∅)] := by
      simp [valuesOf, lt_crowdedKey.ne']
    rw [hfirst, hvalues] at hmany
    exact Nat.not_lt_zero _ hmany

/-- **Documents that differ in the order of their forms only, of which one raises a
flag.** -/
theorem flags_depend_on_order : SameElements crowdedFirst crowdedLast ∧
    (parseDocument sampleCrate (crowdedUrl "/") crowdedFirst crowdedLimits).controlLimitReached =
      true ∧
    (parseDocument sampleCrate (crowdedUrl "/") crowdedLast crowdedLimits).controlLimitReached =
      false := by
  refine ⟨sameElements_crowded, crowdedFirst_raised, Bool.eq_false_iff.mpr fun hraised => ?_⟩
  refine crowdedLast_not_raised (controlRaised_of_ascending _ _ _ _ ?_ hraised)
  rw [formParts_crowdedLast]
  simp [lt_crowdedKey.le]

end Termivar.Discovery
