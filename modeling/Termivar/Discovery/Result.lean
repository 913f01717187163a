/-
# What discovery returns

The routes and forms are those of all elements merged and then cut to the
limits. So they do not depend on the order of the elements, every URL among them
is canonical and of the document's origin, and where no flag is raised nothing
was left out (`parseDocument_merged_then_cut`).
-/
import Termivar.Discovery.Offline
import Termivar.Text

namespace Termivar.Discovery

open SortedPrefix List Finset

/-! ### URLs -/

section Urls

variable {U : Type} (crate : UrlCrate U)

namespace UrlCrate

/-- A URL with an authority, of one of the two schemes of the web. -/
def IsWeb (url : U) : Prop :=
  (crate.scheme url = "http" ∨ crate.scheme url = "https") ∧ crate.hasHost url = true

/-- URLs with the same scheme and authority. -/
structure SameAuthority (url url' : U) : Prop where
  scheme : crate.scheme url = crate.scheme url'
  hasHost : crate.hasHost url = crate.hasHost url'
  username : crate.username url = crate.username url'
  password : crate.password url = crate.password url'
  sameOrigin : ∀ other, crate.sameOrigin url other = crate.sameOrigin url' other

/-- An edit of another part of a URL. -/
def Keeps (edit : U → U) : Prop := ∀ url, crate.IsWeb url → crate.SameAuthority (edit url) url

/-- The setters change the part they are named after. -/
structure Lawful : Prop where
  setFragment_keeps : crate.Keeps (crate.setFragment · none)
  setQuery_keeps : crate.Keeps (crate.setQuery · none)
  setPath_keeps : crate.Keeps (crate.setPath · "/")
  fragment_setFragment : ∀ url, crate.IsWeb url → crate.fragment (crate.setFragment url none) = none
  fragment_setQuery : ∀ url, crate.IsWeb url →
    crate.fragment (crate.setQuery url none) = crate.fragment url
  fragment_setPath : ∀ url, crate.IsWeb url →
    crate.fragment (crate.setPath url "/") = crate.fragment url
  query_setQuery : ∀ url, crate.IsWeb url → crate.query (crate.setQuery url none) = none
  query_setPath : ∀ url, crate.IsWeb url → crate.query (crate.setPath url "/") = crate.query url

variable {crate}

theorem SameAuthority.trans {url url' url'' : U} (h : crate.SameAuthority url url')
    (h' : crate.SameAuthority url' url'') : crate.SameAuthority url url'' where
  scheme := h.scheme.trans h'.scheme
  hasHost := h.hasHost.trans h'.hasHost
  username := h.username.trans h'.username
  password := h.password.trans h'.password
  sameOrigin other := (h.sameOrigin other).trans (h'.sameOrigin other)

theorem SameAuthority.isWeb {url url' : U} (h : crate.SameAuthority url url')
    (hweb : crate.IsWeb url') : crate.IsWeb url := by
  rw [IsWeb, h.scheme, h.hasHost]
  exact hweb

end UrlCrate

variable {crate}

theorem isWeb_of_supported {url : U} (h : supportedUncredentialedUrl crate url = true) :
    crate.IsWeb url ∧ crate.username url = "" ∧ crate.password url = none := by
  simp only [supportedUncredentialedUrl, Bool.and_eq_true, Bool.or_eq_true, decide_eq_true_eq,
    String.isEmpty_iff, Option.isNone_iff_eq_none] at h
  exact ⟨h.1.1, h.1.2, h.2⟩

theorem keeps_canonicalUrl (hcrate : crate.Lawful) : crate.Keeps (canonicalUrl crate) := by
  intro url hweb
  have hfrag := hcrate.setFragment_keeps url hweb
  have hqry := (hcrate.setQuery_keeps _ (hfrag.isWeb hweb)).trans hfrag
  unfold canonicalUrl
  dsimp only
  split_ifs
  · exact (hcrate.setPath_keeps _ (hqry.isWeb hweb)).trans hqry
  · exact hqry

theorem canonicalUrl_bare (hcrate : crate.Lawful) {url : U} (hweb : crate.IsWeb url) :
    crate.query (canonicalUrl crate url) = none ∧ crate.fragment (canonicalUrl crate url) = none := by
  have hwebF := (hcrate.setFragment_keeps url hweb).isWeb hweb
  have hwebQ := (hcrate.setQuery_keeps _ hwebF).isWeb hwebF
  have hqry := hcrate.query_setQuery _ hwebF
  have hfrag := (hcrate.fragment_setQuery _ hwebF).trans (hcrate.fragment_setFragment url hweb)
  unfold canonicalUrl
  dsimp only
  split_ifs
  · exact ⟨(hcrate.query_setPath _ hwebQ).trans hqry, (hcrate.fragment_setPath _ hwebQ).trans hfrag⟩
  · exact ⟨hqry, hfrag⟩

variable (crate) (documentUrl : U) (limits : WebAssessmentLimits)

/-- What a URL is that is kept. -/
structure Canonical (url : U) : Prop where
  sameOrigin : crate.sameOrigin url documentUrl = true
  username : crate.username url = ""
  password : crate.password url = none
  query : crate.query url = none
  fragment : crate.fragment url = none
  bytes : (crate.asStr url).utf8ByteSize ≤ limits.maxCanonicalUrlBytes

variable {crate documentUrl limits}

theorem canonical_of_resolved (hcrate : crate.Lawful) {baseUrl url : U} {rawReference : String}
    {names : List String}
    (h : resolve crate documentUrl limits baseUrl rawReference = .accepted url names) :
    Canonical crate documentUrl limits url := by
  unfold resolve at h
  dsimp only at h
  split_ifs at h with hlong
  cases hjoin : crate.join baseUrl (trim rawReference) with
  | none =>
    rw [hjoin] at h
    cases h
  | some joined =>
    rw [hjoin] at h
    dsimp only at h
    split_ifs at h with huns houts hbs
    injection h with hurl hns
    subst hurl
    obtain ⟨hweb, huser, hpass⟩ := by
      refine isWeb_of_supported (?_ : supportedUncredentialedUrl crate joined = true)
      simpa using huns
    have hkeep := keeps_canonicalUrl hcrate joined hweb
    obtain ⟨hqry, hfrag⟩ := canonicalUrl_bare hcrate hweb
    exact {
      sameOrigin := (hkeep.sameOrigin documentUrl).trans (by simpa using houts)
      username := hkeep.username.trans huser
      password := hkeep.password.trans hpass
      query := hqry
      fragment := hfrag
      bytes := Nat.le_of_not_lt hbs }

end Urls

variable {U : Type} (crate : UrlCrate U) (documentUrl : U) (limits : WebAssessmentLimits)

/-! ### The order of the elements -/

/-- Documents with the same first base and the same elements, in whatever order. -/
structure SameElements (document other : Handle) : Prop where
  base : Tree.search baseReference [document] = Tree.search baseReference [other]
  elements : elements document = elements other

theorem SameElements.firstDocumentBase {document other : Handle} (h : SameElements document other) :
    firstDocumentBase crate document documentUrl = firstDocumentBase crate other documentUrl := by
  rw [Discovery.firstDocumentBase, Discovery.firstDocumentBase, h.base]

theorem SameElements.findingsIn_perm {document other : Handle} (h : SameElements document other) :
    (findingsIn crate documentUrl limits document).Perm
      (findingsIn crate documentUrl limits other) := by
  have hperm : (document.preorder.filterMap elementOf).Perm (other.preorder.filterMap elementOf) :=
    Multiset.coe_eq_coe.mp h.elements
  rw [findingsIn, findingsIn, h.firstDocumentBase]
  exact hperm.filterMap _

theorem unionOf_perm {W : Type} {part : W → Finset String} {values values' : List W}
    (h : values.Perm values') : unionOf part values = unionOf part values' := by
  ext name
  simp only [mem_unionOf, h.mem_iff]

theorem methodOf_perm {values values' : List RoutePart} (h : values.Perm values') :
    methodOf values = methodOf values' := by
  have hany : (values.any fun part => part.1 = .get) = values'.any fun part => part.1 = .get := by
    rw [Bool.eq_iff_iff, any_eq_true, any_eq_true]
    simp only [h.mem_iff]
  rw [methodOf, methodOf, hany]

section Perm

variable {findings findings' : List (Finding U)}

theorem routeParts_perm (h : findings.Perm findings') :
    (routeParts findings).Perm (routeParts findings') := h.filterMap _

theorem formParts_perm (h : findings.Perm findings') :
    (formParts findings).Perm (formParts findings') := h.filterMap _

variable [LinearOrder U]

theorem valuesOf_perm {K W : Type} [LinearOrder K] {parts parts' : List (K × W)}
    (h : parts.Perm parts') (key : K) : (valuesOf key parts).Perm (valuesOf key parts') :=
  (h.filter _).map _

theorem mergedRoutes_perm (h : findings.Perm findings') :
    mergedRoutes findings = mergedRoutes findings' := by
  have hpar := routeParts_perm h
  rw [mergedRoutes, mergedRoutes, keys_perm hpar]
  refine map_congr_left fun url _ => ?_
  rw [mergedRoute, mergedRoute, methodOf_perm (valuesOf_perm hpar url), unionOf_perm (valuesOf_perm hpar url)]

theorem mergedForms_perm (h : findings.Perm findings') :
    mergedForms findings = mergedForms findings' := by
  have hpar := formParts_perm h
  rw [mergedForms, mergedForms, keys_perm hpar]
  refine map_congr_left fun key _ => ?_
  rw [mergedForm, mergedForm, unionOf_perm (valuesOf_perm hpar key),
    unionOf_perm (valuesOf_perm hpar key)]

end Perm

variable [LinearOrder U]

/-! ### Where the URLs come from -/

omit [LinearOrder U] in
theorem mem_routeParts {findings : List (Finding U)} {part : U × RoutePart} :
    part ∈ routeParts findings ↔ ∃ finding ∈ findings, finding.routePart = some part :=
  mem_filterMap

omit [LinearOrder U] in
theorem mem_formParts {findings : List (Finding U)} {part : FormKey U × FormPart} :
    part ∈ formParts findings ↔ ∃ finding ∈ findings, finding.formPart = some part :=
  mem_filterMap

/-- The URL of what is kept of a finding. -/
def Finding.url : Finding U → Option U
  | .route url _ _ _ => some url
  | .form key _ _ _ _ => some (ofLex key).1
  | _ => none

variable {crate documentUrl limits} {document : Handle}

omit [LinearOrder U] in
theorem canonical_of_finding (hcrate : crate.Lawful) {finding : Finding U} {url : U}
    (hfind : finding ∈ findingsIn crate documentUrl limits document)
    (hurl : finding.url = some url) : Canonical crate documentUrl limits url := by
  obtain ⟨element, -, hfnd⟩ := mem_filterMap.mp hfind
  cases element with
  | reference localName attrs =>
    obtain ⟨⟨attr, method⟩, -, h⟩ := Option.bind_eq_some_iff.mp hfnd
    obtain ⟨reference, -, h⟩ := Option.bind_eq_some_iff.mp h
    rcases Resolved.finding_cases h with ⟨found, names, hresv, rfl⟩ | rfl | rfl
    · cases hurl
      exact canonical_of_resolved hcrate hresv
    · cases hurl
    · cases hurl
  | form attrs controls =>
    rcases Resolved.finding_cases hfnd with ⟨found, names, hresv, rfl⟩ | rfl | rfl
    · cases hurl
      unfold resolveAction at hresv
      dsimp only at hresv
      split_ifs at hresv
      · exact canonical_of_resolved hcrate hresv
      · exact canonical_of_resolved hcrate hresv
    · cases hurl
    · cases hurl

omit [LinearOrder U] in
theorem url_of_routePart {finding : Finding U} {part : U × RoutePart}
    (h : finding.routePart = some part) : finding.url = some part.1 := by
  cases finding with
  | outsideOrigin => cases h
  | urlByteLimit => cases h
  | route url method names dropped =>
    cases h
    rfl
  | form key names controls dropped controlsDropped =>
    rw [Finding.routePart] at h
    split_ifs at h
    cases h
    rfl

omit [LinearOrder U] in
theorem url_of_formPart {finding : Finding U} {part : FormKey U × FormPart}
    (h : finding.formPart = some part) : finding.url = some (ofLex part.1).1 := by
  cases finding with
  | form key names controls dropped controlsDropped =>
    cases h
    rfl
  | _ => cases h

/-- **Every URL of a route is canonical.** -/
theorem canonical_routes (hcrate : crate.Lawful) :
    ∀ route ∈ (parseDocument crate documentUrl document limits).routes,
      Canonical crate documentUrl limits route.url := by
  intro route hrt
  rw [parse_routes_eq] at hrt
  obtain ⟨merged, hmerged, rfl⟩ := mem_map.mp hrt
  obtain ⟨url, hurl, rfl⟩ := mem_map.mp (mem_of_mem_take hmerged)
  obtain ⟨part, hpart, rfl⟩ := mem_keys.mp ((mem_sort _).mp hurl)
  obtain ⟨finding, hfind, hpart⟩ := mem_routeParts.mp hpart
  have hurl := url_of_routePart hpart
  exact canonical_of_finding hcrate hfind hurl

/-- **Every action of a form is canonical.** -/
theorem canonical_forms (hcrate : crate.Lawful) :
    ∀ form ∈ (parseDocument crate documentUrl document limits).forms,
      Canonical crate documentUrl limits form.action := by
  intro form hform
  rw [parse_forms_eq] at hform
  obtain ⟨merged, hmerged, rfl⟩ := mem_map.mp hform
  obtain ⟨key, hkey, rfl⟩ := mem_map.mp (mem_of_mem_take hmerged)
  obtain ⟨part, hpart, rfl⟩ := mem_keys.mp ((mem_sort _).mp hkey)
  obtain ⟨finding, hfind, hpart⟩ := mem_formParts.mp hpart
  have hurl := url_of_formPart hpart
  exact canonical_of_finding hcrate hfind hurl

/-! ### Nothing left out -/

/-- No limit was reached. -/
structure Unlimited (result : ParsedDocument U) : Prop where
  route : result.routeLimitReached = false
  form : result.formLimitReached = false
  control : result.controlLimitReached = false
  queryName : result.queryNameLimitReached = false
  urlByte : result.urlByteLimitReached = false

/-- Every name that is not empty and has no control characters is there. -/
def AllNames (names : List String) (present : List String) : Prop :=
  ∀ name ∈ names, nameDisposition name ≠ .inert → name ∈ present

variable (crate documentUrl limits document)

/-- Every element with an accepted reference is there, with all its names. -/
structure Complete (result : ParsedDocument U) : Prop where
  reference : ∀ localName attrs attr method reference url names,
    .reference localName attrs ∈ elements document →
    routeAttribute localName = some (attr, method) → htmlAttribute attrs attr = some reference →
    resolve crate documentUrl limits (firstDocumentBase crate document documentUrl) reference =
      .accepted url names →
    ∃ route ∈ result.routes, route.url = url ∧ (method = .get → route.method = .get) ∧
      AllNames names route.queryParameterNames
  form : ∀ attrs controls url names, .form attrs controls ∈ elements document →
    resolveAction crate documentUrl limits (firstDocumentBase crate document documentUrl) attrs =
      .accepted url names →
    ∃ form ∈ result.forms, form.action = url ∧ form.method = formMethod attrs ∧
      AllNames names form.queryParameterNames ∧ AllNames controls.toList form.controlNames
  formRoute : ∀ attrs controls url names, .form attrs controls ∈ elements document →
    resolveAction crate documentUrl limits (firstDocumentBase crate document documentUrl) attrs =
      .accepted url names → formMethod attrs = .get →
    ∃ route ∈ result.routes, route.url = url ∧ route.method = .get ∧
      AllNames names route.queryParameterNames
  bytes : .urlByteLimit ∉ findingsIn crate documentUrl limits document

variable {crate documentUrl limits document}

theorem take_sort_of_card {K : Type} [LinearOrder K] {s : Finset K} {n : Nat} (h : s.card ≤ n) :
    s.sort.take n = s.sort := take_of_length_le (by rwa [length_sort])

theorem methodOf_of_mem {values : List RoutePart} {value : RoutePart} (hvalue : value ∈ values)
    (h : value.1 = .get) : methodOf values = .get := by
  rw [methodOf, if_pos (any_eq_true.mpr ⟨value, hvalue, decide_eq_true h⟩)]

/-- A part of a route that is kept with all its names. -/
theorem route_of_part (hunl : Unlimited (parseDocument crate documentUrl document limits))
    {url : U} {part : RoutePart}
    (hpart : (url, part) ∈ routeParts (findingsIn crate documentUrl limits document)) :
    ∃ route ∈ (parseDocument crate documentUrl document limits).routes,
      route.url = url ∧ (part.1 = .get → route.method = .get) ∧
      ∀ name ∈ part.2, name ∈ route.queryParameterNames := by
  have hobs := observed_walk crate documentUrl limits document
  have hkeys : (keys (routeParts (findingsIn crate documentUrl limits document))).card ≤
      limits.maxReferencesPerDocument :=
    Nat.le_of_not_lt fun h => Bool.false_ne_true (hunl.route.symm.trans (hobs.routeLimit.mpr h))
  have hkept : url ∈ (keys (routeParts (findingsIn crate documentUrl limits document))).sort :=
    (mem_sort _).mpr (mem_keys.mpr ⟨_, hpart, rfl⟩)
  have hqry : ¬(parseDocument crate documentUrl document limits).queryNameLimitReached = true := by
    rw [hunl.queryName]
    exact Bool.false_ne_true
  rw [parse_queryLimit] at hqry
  have hns : (unionOf Prod.snd (valuesOf url (routeParts
      (findingsIn crate documentUrl limits document)))).card ≤ limits.maxQueryParameterNames := by
    refine Nat.le_of_not_lt fun hmany => hqry (.inl (.inr (.inr ⟨url, ?_, hmany⟩)))
    rwa [take_sort_of_card hkeys]
  rw [parse_routes_eq]
  refine ⟨keepRoute limits (mergedRoute (findingsIn crate documentUrl limits document) url),
    mem_map_of_mem ?_, rfl, ?_, ?_⟩
  · rw [mergedRoutes, ← map_take, take_sort_of_card hkeys]
    exact mem_map_of_mem hkept
  · exact methodOf_of_mem (mem_valuesOf.mpr hpart)
  · intro name hname
    change name ∈ (unionOf Prod.snd _).sort.take limits.maxQueryParameterNames
    rw [take_sort_of_card hns, mem_sort, mem_unionOf]
    exact ⟨part, mem_valuesOf.mpr hpart, hname⟩

/-- A part of a form that is kept with all its names. -/
theorem form_of_part (hunl : Unlimited (parseDocument crate documentUrl document limits))
    {key : FormKey U} {part : FormPart}
    (hpart : (key, part) ∈ formParts (findingsIn crate documentUrl limits document)) :
    ∃ form ∈ (parseDocument crate documentUrl document limits).forms,
      form.action = (ofLex key).1 ∧ form.method = (ofLex key).2 ∧
      (∀ name ∈ part.1, name ∈ form.queryParameterNames) ∧
      ∀ name ∈ part.2, name ∈ form.controlNames := by
  have hobs := observed_walk crate documentUrl limits document
  have hkeys : (keys (formParts (findingsIn crate documentUrl limits document))).card ≤
      limits.maxForms :=
    Nat.le_of_not_lt fun h => Bool.false_ne_true (hunl.form.symm.trans (hobs.formLimit.mpr h))
  have hkept : key ∈ (keys (formParts (findingsIn crate documentUrl limits document))).sort :=
    (mem_sort _).mpr (mem_keys.mpr ⟨_, hpart, rfl⟩)
  have hqry : ¬(parseDocument crate documentUrl document limits).queryNameLimitReached = true := by
    rw [hunl.queryName]
    exact Bool.false_ne_true
  have hcontrol : ¬(parseDocument crate documentUrl document limits).controlLimitReached = true := by
    rw [hunl.control]
    exact Bool.false_ne_true
  rw [parse_queryLimit] at hqry
  rw [parse_controlLimit] at hcontrol
  have hns : (unionOf Prod.fst (valuesOf key (formParts
      (findingsIn crate documentUrl limits document)))).card ≤ limits.maxQueryParameterNames := by
    refine Nat.le_of_not_lt fun hmany => hqry (.inr (.inr (.inr ⟨key, ?_, hmany⟩)))
    rwa [take_sort_of_card hkeys]
  have hcont : (unionOf Prod.snd (valuesOf key (formParts
      (findingsIn crate documentUrl limits document)))).card ≤ limits.maxControlsPerForm := by
    refine Nat.le_of_not_lt fun hmany => hcontrol (.inr (.inr ⟨key, ?_, hmany⟩))
    rwa [take_sort_of_card hkeys]
  rw [parse_forms_eq]
  refine ⟨keepForm limits (mergedForm (findingsIn crate documentUrl limits document) key),
    mem_map_of_mem ?_, rfl, rfl, ?_, ?_⟩
  · rw [mergedForms, ← map_take, take_sort_of_card hkeys]
    exact mem_map_of_mem hkept
  · intro name hname
    change name ∈ (unionOf Prod.fst _).sort.take limits.maxQueryParameterNames
    rw [take_sort_of_card hns, mem_sort, mem_unionOf]
    exact ⟨part, mem_valuesOf.mpr hpart, hname⟩
  · intro name hname
    change name ∈ (unionOf Prod.snd _).sort.take limits.maxControlsPerForm
    rw [take_sort_of_card hcont, mem_sort, mem_unionOf]
    exact ⟨part, mem_valuesOf.mpr hpart, hname⟩

/-- Where no name is too long, those that are not inert are accepted. -/
theorem mem_acceptedNames {names : List String} (hlong : hasTooLong names = false) {name : String}
    (hname : name ∈ names) (hinert : nameDisposition name ≠ .inert) : name ∈ acceptedNames names := by
  rw [acceptedNames, mem_toFinset, mem_filter]
  refine ⟨hname, ?_⟩
  have hsh := any_eq_false.mp hlong name hname
  cases hdisp : nameDisposition name with
  | accepted => rfl
  | tooLong => exact absurd (decide_eq_true hdisp) hsh
  | inert => exact absurd hdisp hinert

theorem mem_acceptedControls {controls : Multiset String} (hdrop : controlsDropped controls = false)
    {name : String} (hname : name ∈ controls.toList) (hinert : nameDisposition name ≠ .inert) :
    name ∈ acceptedControls controls := by
  rw [controlsDropped, Bool.or_eq_false_iff, decide_eq_false_iff_not, Multiset.countP_pos] at hdrop
  rw [acceptedControls, Multiset.mem_toFinset, Multiset.mem_filter]
  refine ⟨Multiset.mem_toList.mp hname, ?_⟩
  cases hdisp : nameDisposition name with
  | accepted => rfl
  | tooLong => exact absurd ⟨name, Multiset.mem_toList.mp hname, hdisp⟩ hdrop.1
  | inert => exact absurd hdisp hinert

omit [LinearOrder U] in
theorem mem_findingsIn {element : Element} {finding : Finding U}
    (helem : element ∈ elements document)
    (hfind : findingOf crate documentUrl limits (firstDocumentBase crate document documentUrl)
      element = some finding) : finding ∈ findingsIn crate documentUrl limits document :=
  mem_filterMap.mpr ⟨element, Multiset.mem_coe.mp helem, hfind⟩

theorem names_kept (hunl : Unlimited (parseDocument crate documentUrl document limits))
    {finding : Finding U} (hfind : finding ∈ findingsIn crate documentUrl limits document) :
    finding.namesDropped = false ∧ finding.controlsDropped = false := by
  constructor
  · refine Bool.eq_false_iff.mpr fun h => Bool.false_ne_true (hunl.queryName.symm.trans ?_)
    exact (parse_queryLimit _ _ _ _).mpr (.inl (.inl ⟨finding, hfind, h⟩))
  · refine Bool.eq_false_iff.mpr fun h => Bool.false_ne_true (hunl.control.symm.trans ?_)
    exact (parse_controlLimit _ _ _ _).mpr (.inl ⟨finding, hfind, h⟩)

theorem hasTooLong_eq_false {names : List String} (h : queryLimitReached limits names = false) :
    hasTooLong names = false := by
  rw [queryLimitReached, Bool.or_eq_false_iff] at h
  exact h.1

/-- **Where no flag is raised nothing was left out.** -/
theorem complete_of_no_flag (hunl : Unlimited (parseDocument crate documentUrl document limits)) :
    Complete crate documentUrl limits document (parseDocument crate documentUrl document limits) := by
  constructor
  · intro localName attrs attr method reference url names helem hrt hattr hresv
    have hfind : findingOf crate documentUrl limits (firstDocumentBase crate document documentUrl)
        (.reference localName attrs) =
        some (.route url method (acceptedNames names) (queryLimitReached limits names)) := by
      simp [findingOf, hrt, hattr, hresv, Resolved.finding]
    have hmem := mem_findingsIn helem hfind
    obtain ⟨route, hmemR, hurl, hmethod, hns⟩ := route_of_part hunl
      (mem_routeParts.mpr ⟨_, hmem, rfl⟩)
    refine ⟨route, hmemR, hurl, hmethod, fun name hname hinert => hns name ?_⟩
    exact mem_acceptedNames (hasTooLong_eq_false (names_kept hunl hmem).1) hname hinert
  · intro attrs controls url names helem hresv
    have hfind : findingOf crate documentUrl limits (firstDocumentBase crate document documentUrl)
        (.form attrs controls) =
        some (.form (toLex (url, formMethod attrs)) (acceptedNames names) (acceptedControls controls)
          (queryLimitReached limits names) (controlsDropped controls)) := by
      simp [findingOf, hresv, Resolved.finding]
    have hmem := mem_findingsIn helem hfind
    obtain ⟨form, hmemF, hurl, hmethod, hns, hcont⟩ := form_of_part hunl
      (mem_formParts.mpr ⟨_, hmem, rfl⟩)
    refine ⟨form, hmemF, hurl, hmethod, fun name hname hinert => hns name ?_,
      fun name hname hinert => hcont name ?_⟩
    · exact mem_acceptedNames (hasTooLong_eq_false (names_kept hunl hmem).1) hname hinert
    · exact mem_acceptedControls (names_kept hunl hmem).2 hname hinert
  · intro attrs controls url names helem hresv hget
    have hfind : findingOf crate documentUrl limits (firstDocumentBase crate document documentUrl)
        (.form attrs controls) =
        some (.form (toLex (url, formMethod attrs)) (acceptedNames names) (acceptedControls controls)
          (queryLimitReached limits names) (controlsDropped controls)) := by
      simp [findingOf, hresv, Resolved.finding]
    have hmem := mem_findingsIn helem hfind
    obtain ⟨route, hmemR, hurl, hmethod, hns⟩ := route_of_part hunl
      (mem_routeParts.mpr ⟨_, hmem, if_pos hget⟩)
    refine ⟨route, hmemR, hurl, hmethod rfl, fun name hname hinert => hns name ?_⟩
    exact mem_acceptedNames (hasTooLong_eq_false (names_kept hunl hmem).1) hname hinert
  · intro hmem
    have hobs := observed_walk crate documentUrl limits document
    exact Bool.false_ne_true (hunl.urlByte.symm.trans (hobs.urlByteLimit.mpr hmem))

/-- **The bounds that are kept during the walk are those of a merge of everything
that is cut afterwards:** its first routes and forms, each with the first of its
names, all canonical and of the document's origin, whatever the order of the
elements; and everything that is accepted where no flag is raised. -/
theorem parseDocument_merged_then_cut (crate : UrlCrate U) (hcrate : crate.Lawful) (documentUrl : U)
    (document : Handle) (limits : WebAssessmentLimits) :
    (parseDocument crate documentUrl document limits).routes =
      ((mergedRoutes (findingsIn crate documentUrl limits document)).take
        limits.maxReferencesPerDocument).map (keepRoute limits) ∧
    (parseDocument crate documentUrl document limits).forms =
      ((mergedForms (findingsIn crate documentUrl limits document)).take
        limits.maxForms).map (keepForm limits) ∧
    (∀ route ∈ (parseDocument crate documentUrl document limits).routes,
      Canonical crate documentUrl limits route.url) ∧
    (∀ form ∈ (parseDocument crate documentUrl document limits).forms,
      Canonical crate documentUrl limits form.action) ∧
    (∀ other, SameElements document other →
      (parseDocument crate documentUrl document limits).routes =
        (parseDocument crate documentUrl other limits).routes ∧
      (parseDocument crate documentUrl document limits).forms =
        (parseDocument crate documentUrl other limits).forms) ∧
    (Unlimited (parseDocument crate documentUrl document limits) →
      Complete crate documentUrl limits document
        (parseDocument crate documentUrl document limits)) := by
  refine ⟨parse_routes_eq crate documentUrl limits document,
    parse_forms_eq crate documentUrl limits document, canonical_routes hcrate, canonical_forms hcrate,
    fun other h => ?_, complete_of_no_flag⟩
  have hperm := h.findingsIn_perm crate documentUrl limits
  rw [parse_routes_eq, parse_routes_eq, parse_forms_eq, parse_forms_eq, mergedRoutes_perm hperm,
    mergedForms_perm hperm]
  exact ⟨rfl, rfl⟩

/-! ### A sample -/

/-- The path, the query and the fragment of a URL of one host. -/
abbrev SampleUrl : Type := String ×ₗ WithBot String ×ₗ WithBot String

instance : DecidableEq SampleUrl := LinearOrder.toDecidableEq

def sampleCut (separator : Char) (text : List Char) : List Char × Option String :=
  match splitOnce separator text with
  | some (first, rest) => (first, some (String.ofList rest))
  | none => (text, none)

def sampleOf (path : String) (query fragment : Option String) : SampleUrl :=
  toLex (path, toLex (query, fragment))

/-- References that begin with a path are joined, as that of any base. -/
def sampleJoin (reference : String) : Option SampleUrl :=
  let (rest, fragment) := sampleCut '#' reference.toList
  let (path, query) := sampleCut '?' rest
  if path.head? = some '/' then some (sampleOf (String.ofList path) query fragment) else none

def samplePairs (query : String) : List (String × String) :=
  (query.toList.splitOn '&').map fun pair =>
    let (name, value) := sampleCut '=' pair
    (String.ofList name, value.getD "")

def sampleCrate : UrlCrate SampleUrl where
  join _ reference := sampleJoin reference
  asStr url := "https://example.test" ++ (ofLex url).1 ++
    ((ofLex (ofLex url).2).1.map ("?" ++ ·)).getD "" ++ ((ofLex (ofLex url).2).2.map ("#" ++ ·)).getD ""
  scheme _ := "https"
  hasHost _ := true
  username _ := ""
  password _ := none
  sameOrigin _ _ := true
  path url := (ofLex url).1
  query url := (ofLex (ofLex url).2).1
  fragment url := (ofLex (ofLex url).2).2
  queryPairs url := ((ofLex (ofLex url).2).1.map samplePairs).getD []
  setPath url path := sampleOf path (ofLex (ofLex url).2).1 (ofLex (ofLex url).2).2
  setQuery url query := sampleOf (ofLex url).1 query (ofLex (ofLex url).2).2
  setFragment url fragment := sampleOf (ofLex url).1 (ofLex (ofLex url).2).1 fragment

theorem sampleCrate_lawful : sampleCrate.Lawful where
  setFragment_keeps _ _ := ⟨rfl, rfl, rfl, rfl, fun _ => rfl⟩
  setQuery_keeps _ _ := ⟨rfl, rfl, rfl, rfl, fun _ => rfl⟩
  setPath_keeps _ _ := ⟨rfl, rfl, rfl, rfl, fun _ => rfl⟩
  fragment_setFragment _ _ := rfl
  fragment_setQuery _ _ := rfl
  fragment_setPath _ _ := rfl
  query_setQuery _ _ := rfl
  query_setPath _ _ := rfl

def sampleLimits : WebAssessmentLimits where
  maxReferencesPerDocument := 2
  maxCanonicalUrlBytes := 64
  maxForms := 1
  maxControlsPerForm := 1
  maxQueryParameterNames := 2
  references := by decide
  canonicalUrl := by decide
  forms := by decide
  controls := by decide
  queryNames := by decide

def sampleAnchor (reference : String) : Handle :=
  .node (.element true "a" [⟨true, "href", reference⟩]) []

def sampleDocument : Handle :=
  .node .other [sampleAnchor "/next?z=2&a=1#part", sampleAnchor "/write", sampleAnchor "/next?b"]

/-- The third name of the first route is left out. -/
theorem parseDocument_merged_then_cut_sample :
    (parseDocument sampleCrate (sampleOf "/" none none) sampleDocument sampleLimits).routes =
      [⟨sampleOf "/next" none none, .get, ["a", "b"]⟩, ⟨sampleOf "/write" none none, .get, []⟩] ∧
    ∀ route ∈ (parseDocument sampleCrate (sampleOf "/" none none) sampleDocument sampleLimits).routes,
      Canonical sampleCrate (sampleOf "/" none none) sampleLimits route.url :=
  ⟨by decide +kernel, (parseDocument_merged_then_cut sampleCrate sampleCrate_lawful
    (sampleOf "/" none none) sampleDocument sampleLimits).2.2.1⟩

end Termivar.Discovery
