/-
# What discovery finds

What one element contributes, with its names as sets that are not bounded yet,
and what a walk makes of all contributions: its maps are the bounded maps of the
parts, and each flag is raised exactly by what the findings and the maps say.
-/
import Termivar.Discovery.Model

namespace Termivar.Discovery

open SortedPrefix Finset

/-! ### Sets of names -/

/-- The names that may be kept. -/
def acceptedNames (names : List String) : Finset String :=
  (names.filter fun name => nameDisposition name = .accepted).toFinset

def hasTooLong (names : List String) : Bool := names.any fun name => nameDisposition name = .tooLong

/-- The names kept of a set, of whatever size. -/
def firstNames (names : Finset String) : List String :=
  names.sort.take hardMaxDiscoveryNamesPerReference

theorem foldl_insertName : ∀ (names : List String) (set : List String) (reached : Bool),
    names.foldl insertName (set, reached) =
      let collected := collect hardMaxDiscoveryNamesPerReference
        (names.filter fun name => nameDisposition name = .accepted) set
      (collected.1, reached || hasTooLong names || collected.2)
  | [], set, reached => by simp [collect, hasTooLong]
  | name :: names, set, reached => by
    rw [List.foldl_cons, insertName]
    cases hname : nameDisposition name with
    | accepted => simp [foldl_insertName names, hname, collect, hasTooLong, Bool.or_assoc, Bool.or_left_comm]
    | tooLong => simp [foldl_insertName names, hname, hasTooLong]
    | inert => simp [foldl_insertName names, hname, hasTooLong]

/-- The names of a reference or a form: the first of those accepted, and whether
one was too long or too many. -/
theorem insertNames_eq (names : List String) :
    names.foldl insertName ([], false) = (firstNames (acceptedNames names), hasTooLong names ||
        decide (hardMaxDiscoveryNamesPerReference < (acceptedNames names).card)) := by
  have hemp : ([] : List String) =
      (∅ : Finset String).sort.take hardMaxDiscoveryNamesPerReference := by simp
  rw [foldl_insertName, hemp]
  dsimp only
  rw [collect_eq, empty_union, Bool.false_or]
  congr 2
  rw [Bool.eq_iff_iff, decide_eq_true_iff]
  constructor
  · intro h
    simpa [acceptedNames] using lt_card_of_collect h
  · intro h
    exact collect_of_lt_card (by simp) (by simpa [acceptedNames] using h)

theorem sort_take_pairwise (names : Finset String) (n : Nat) :
    (names.sort.take n).Pairwise (· < ·) :=
  (sort_pairwise names).sublist (List.take_sublist _ _)

theorem nameSet_eq (names : List String) : nameSet names = names.toFinset.sort := by
  have hfold : ∀ (names : List String) (set : Finset String),
      names.foldl (fun set name => insertSorted name set) set.sort = (set ∪ names.toFinset).sort := by
    intro names
    induction names with
    | nil => simp
    | cons name names ih =>
      intro set
      rw [List.foldl_cons, insertSorted_sort, ih, List.toFinset_cons, insert_union, union_insert]
  have h := hfold names ∅
  rwa [sort_empty, empty_union] at h

theorem nameSet_firstNames (names : Finset String) : nameSet (firstNames names) = firstNames names := by
  rw [nameSet_eq]
  refine eq_of_mem_iff (sort_pairwise _) (sort_take_pairwise names _) fun name => ?_
  rw [mem_sort, List.mem_toFinset]

/-! ### References -/

variable {U : Type} (crate : UrlCrate U) (documentUrl : U) (limits : WebAssessmentLimits)

/-- The canonical URL and the query names of a reference that is followed, before
any of them is left out. -/
inductive Resolved (U : Type) where
  | accepted (url : U) (names : List String)
  | outsideOrigin
  | urlByteLimit
  | inert
  deriving DecidableEq

/-- The query names of a URL. -/
def queryNames (url : U) : List String := (crate.queryPairs url).map Prod.fst

variable (baseUrl : U)

def resolve (rawReference : String) : Resolved U :=
  let reference := trim rawReference
  if reference.utf8ByteSize > limits.maxCanonicalUrlBytes then .urlByteLimit
  else
    match crate.join baseUrl reference with
    | none => .inert
    | some url =>
      if !supportedUncredentialedUrl crate url then .inert
      else if !crate.sameOrigin url documentUrl then .outsideOrigin
      else if (crate.asStr (canonicalUrl crate url)).utf8ByteSize > limits.maxCanonicalUrlBytes then
        .urlByteLimit
      else .accepted (canonicalUrl crate url) (queryNames crate url)

/-- Names are left out of a reference. -/
def queryLimitReached (names : List String) : Bool :=
  hasTooLong names || decide (limits.maxQueryParameterNames < (acceptedNames names).card)

/-- The controls of a form that may be kept. -/
def acceptedControls (controls : Multiset String) : Finset String :=
  (controls.filter fun name => nameDisposition name = .accepted).toFinset

/-- Controls are left out of a form. -/
def controlsDropped (controls : Multiset String) : Bool :=
  decide (0 < controls.countP fun name => nameDisposition name = .tooLong) ||
    decide (hardMaxDiscoveryNamesPerReference < (acceptedControls controls).card)

def Resolved.bounded : Resolved U → ReferenceResolution U
  | .accepted url names =>
    .accepted url (firstNames (acceptedNames names)) (queryLimitReached limits names)
  | .outsideOrigin => .outsideOrigin
  | .urlByteLimit => .urlByteLimit
  | .inert => .inert

theorem queryLimit_eq (names : List String) :
    (hasTooLong names || decide (hardMaxDiscoveryNamesPerReference < (acceptedNames names).card) ||
        decide ((firstNames (acceptedNames names)).length > hardMaxDiscoveryNamesPerReference) ||
        decide ((firstNames (acceptedNames names)).length > limits.maxQueryParameterNames)) =
      queryLimitReached limits names := by
  have hmax : limits.maxQueryParameterNames ≤ hardMaxDiscoveryNamesPerReference := limits.queryNames
  have hlength : (firstNames (acceptedNames names)).length =
      min hardMaxDiscoveryNamesPerReference (acceptedNames names).card := by
    rw [firstNames, List.length_take, length_sort]
  rw [Bool.eq_iff_iff, queryLimitReached, hlength]
  simp only [Bool.or_eq_true, decide_eq_true_eq, or_assoc]
  refine or_congr_right ?_
  omega

/-- **A reference is what it resolves to, with its names bounded.** -/
theorem resolveReference_eq (rawReference : String) :
    resolveReference crate baseUrl rawReference documentUrl limits =
      (resolve crate documentUrl limits baseUrl rawReference).bounded limits := by
  unfold resolveReference resolve
  dsimp only
  split_ifs with hlong
  · rfl
  · cases crate.join baseUrl (trim rawReference) with
    | none => rfl
    | some url =>
      dsimp only
      split_ifs with huns houts hbs
      · rfl
      · rfl
      · rfl
      · have hns : (firstNames (acceptedNames (queryNames crate url))).take
            hardMaxDiscoveryNamesPerReference = firstNames (acceptedNames (queryNames crate url)) := by
          rw [firstNames, List.take_take, Nat.min_self]
        have hbdd : boundedQueryNames crate url hardMaxDiscoveryNamesPerReference =
            (firstNames (acceptedNames (queryNames crate url)),
              hasTooLong (queryNames crate url) || decide (hardMaxDiscoveryNamesPerReference <
                (acceptedNames (queryNames crate url)).card) ||
              decide ((firstNames (acceptedNames (queryNames crate url))).length >
                hardMaxDiscoveryNamesPerReference)) := by
          unfold boundedQueryNames
          rw [← queryNames, insertNames_eq]
          dsimp only
          rw [hns]
        rw [hbdd, Resolved.bounded, ← queryLimit_eq]

/-! ### Elements -/

/-- A link, area, anchor or form: its attributes, and of a form the names of its
controls. -/
inductive Element where
  | reference (localName : String) (attrs : List Attribute)
  | form (attrs : List Attribute) (controls : Multiset String)

/-- The names of the controls of a form, in document order. -/
def controlNames (handle : Handle) : List String :=
  (Tree.visitedAll (fun data => !isHtmlForm data) handle.children).filterMap fun child =>
    controlName child.data

def elementOf (handle : Handle) : Option Element :=
  match handle.data with
  | .element true localName attrs =>
    if (routeAttribute localName).isSome then some (.reference localName attrs)
    else if localName = "form" then some (.form attrs (controlNames handle))
    else none
  | _ => none

/-- The elements of a document, whatever their order. -/
def elements (document : Handle) : Multiset Element := document.preorder.filterMap elementOf

/-- What an element contributes; the last two of a form tell whether a query name
and whether a control is left out of it. -/
inductive Finding (U : Type) where
  | outsideOrigin
  | urlByteLimit
  | route (url : U) (method : WebAssessmentMethod) (names : Finset String) (namesDropped : Bool)
  | form (key : FormKey U) (names controls : Finset String) (namesDropped controlsDropped : Bool)
  deriving DecidableEq

def Resolved.finding (accepted : U → List String → Finding U) : Resolved U → Option (Finding U)
  | .accepted url names => some (accepted url names)
  | .outsideOrigin => some .outsideOrigin
  | .urlByteLimit => some .urlByteLimit
  | .inert => none

/-- The action of a form; the document itself where there is none. -/
def resolveAction (attrs : List Attribute) : Resolved U :=
  let reference := (htmlAttribute attrs "action").getD ""
  if (trim reference).isEmpty then
    resolve crate documentUrl limits documentUrl (crate.asStr documentUrl)
  else resolve crate documentUrl limits baseUrl (trim reference)

def findingOf : Element → Option (Finding U)
  | .reference localName attrs => do
    let (attr, method) ← routeAttribute localName
    let reference ← htmlAttribute attrs attr
    (resolve crate documentUrl limits baseUrl reference).finding fun url names =>
      .route url method (acceptedNames names) (queryLimitReached limits names)
  | .form attrs controls =>
    (resolveAction crate documentUrl limits baseUrl attrs).finding fun url names =>
      .form (toLex (url, formMethod attrs)) (acceptedNames names) (acceptedControls controls)
        (queryLimitReached limits names) (controlsDropped controls)

variable [LinearOrder U]

/-- What the walk does with a finding. -/
def apply (progress : Progress U) : Finding U → Progress U
  | .outsideOrigin =>
    { progress with result := { progress.result with
        outsideOriginReferenceCount :=
          saturatingAdd u64Max progress.result.outsideOriginReferenceCount 1 } }
  | .urlByteLimit =>
    { progress with result := { progress.result with urlByteLimitReached := true } }
  | .route url method names namesDropped =>
    let (routes, routeLimit, queryLimit) :=
      insertRoute progress.routes url method (firstNames names) limits.maxReferencesPerDocument
    { progress with
      routes
      result := { progress.result with
        queryNameLimitReached := progress.result.queryNameLimitReached || namesDropped || queryLimit
        routeLimitReached := progress.result.routeLimitReached || routeLimit } }
  | .form key names controls namesDropped controlsDropped =>
    let form : ParsedForm U := {
      action := (ofLex key).1, method := (ofLex key).2,
      queryParameterNames := firstNames names, controlNames := firstNames controls }
    let result := { progress.result with
      queryNameLimitReached := progress.result.queryNameLimitReached || namesDropped
      controlLimitReached := progress.result.controlLimitReached || controlsDropped }
    let progress := insertFormRoute limits { progress with result } form
    let (forms, formLimit, controlLimit, queryLimit) := insertForm progress.forms form limits.maxForms
    { progress with
      forms
      result := { progress.result with
        formLimitReached := progress.result.formLimitReached || formLimit
        controlLimitReached := progress.result.controlLimitReached || controlLimit
        queryNameLimitReached := progress.result.queryNameLimitReached || queryLimit } }

def applyElement (progress : Progress U) (element : Element) : Progress U :=
  match findingOf crate documentUrl limits baseUrl element with
  | some finding => apply limits progress finding
  | none => progress

omit [LinearOrder U] in
theorem controls_eq (handle : Handle) :
    Tree.walk (fun data => !isHtmlForm data) visitControl handle.children ([], false) =
      (firstNames (acceptedControls (controlNames handle)), controlsDropped (controlNames handle)) := by
  have hvis : ∀ (nodes : List Handle) (state : List String × Bool), nodes.foldl visitControl state =
      (nodes.filterMap fun child => controlName child.data).foldl insertName state := by
    intro nodes
    induction nodes with
    | nil => exact fun _ => rfl
    | cons child nodes ih =>
      intro state
      rw [List.foldl_cons, ih, visitControl]
      cases hname : controlName child.data <;> simp [hname]
  have hlong : hasTooLong (controlNames handle) = decide (0 < (controlNames handle : Multiset String).countP
      fun name => nameDisposition name = .tooLong) := by
    rw [Bool.eq_iff_iff, hasTooLong, decide_eq_true_iff, Multiset.countP_pos]
    simp
  rw [Tree.walk_eq_foldl, hvis]
  refine (insertNames_eq (controlNames handle)).trans ?_
  rw [hlong]
  rfl

theorem visitForm_eq (progress : Progress U) (handle : Handle) (attrs : List Attribute) :
    visitForm crate documentUrl baseUrl limits progress handle attrs =
      applyElement crate documentUrl limits baseUrl progress (.form attrs (controlNames handle)) := by
  have hresv : resolveReference crate
      (if (trim ((htmlAttribute attrs "action").getD "")).isEmpty then documentUrl else baseUrl)
      (if (trim ((htmlAttribute attrs "action").getD "")).isEmpty then crate.asStr documentUrl
        else trim ((htmlAttribute attrs "action").getD "")) documentUrl limits =
      (resolveAction crate documentUrl limits baseUrl attrs).bounded limits := by
    unfold resolveAction
    dsimp only
    split_ifs <;> exact resolveReference_eq _ _ _ _ _
  unfold visitForm parseForm applyElement findingOf
  dsimp only
  rw [hresv, controls_eq]
  cases resolveAction crate documentUrl limits baseUrl attrs <;> rfl

/-- **A step of the walk applies the finding of its element.** -/
theorem visit_eq (progress : Progress U) (handle : Handle) :
    visit crate documentUrl baseUrl limits progress handle =
      match elementOf handle with
      | some element => applyElement crate documentUrl limits baseUrl progress element
      | none => progress := by
  unfold visit elementOf
  cases handle.data with
  | other => rfl
  | element inHtml localName attrs =>
    cases inHtml with
    | false => rfl
    | true =>
      dsimp only
      cases hrt : routeAttribute localName with
      | some pair =>
        obtain ⟨attr, method⟩ := pair
        simp only [Option.isSome_some, if_true, applyElement, findingOf, hrt, Option.bind_eq_bind,
          Option.bind_some]
        cases htmlAttribute attrs attr with
        | none => rfl
        | some reference =>
          dsimp only [Option.bind_some]
          unfold visitReference
          rw [resolveReference_eq]
          cases resolve crate documentUrl limits baseUrl reference <;> rfl
      | none =>
        simp only [Option.isSome_none, Bool.false_eq_true, if_false]
        split_ifs with hform
        · exact visitForm_eq crate documentUrl limits baseUrl progress handle attrs
        · rfl

/-! ### Maps as bounded maps -/

/-- What comes for a route: a method and names. -/
abbrev RoutePart : Type := WebAssessmentMethod × Finset String

/-- What comes for a form: query names and controls. -/
abbrev FormPart : Type := Finset String × Finset String

def freshRoute (part : RoutePart) : RouteAccumulator := ⟨part.1, firstNames part.2⟩

def addRoute (route : RouteAccumulator) (part : RoutePart) : RouteAccumulator where
  method := if part.1 = .get then .get else route.method
  queryParameterNames := (mergeNames route.queryParameterNames (firstNames part.2)).1

def routeOverflow (route : RouteAccumulator) (part : RoutePart) : Bool :=
  (mergeNames route.queryParameterNames (firstNames part.2)).2

def freshForm (part : FormPart) : FormAccumulator := ⟨firstNames part.1, firstNames part.2⟩

def addForm (form : FormAccumulator) (part : FormPart) : FormAccumulator where
  queryParameterNames := (mergeNames form.queryParameterNames (firstNames part.1)).1
  controlNames := (mergeNames form.controlNames (firstNames part.2)).1

def queryOverflow (form : FormAccumulator) (part : FormPart) : Bool :=
  (mergeNames form.queryParameterNames (firstNames part.1)).2

def controlOverflow (form : FormAccumulator) (part : FormPart) : Bool :=
  (mergeNames form.controlNames (firstNames part.2)).2

theorem crowds_of_new {K V : Type} [LinearOrder K] {limit : Nat} {key : K} {entries : List (K × V)}
    (h : lookup key entries = none) : crowds limit entries key = decide (limit ≤ entries.length) := by
  rw [crowds, h]
  rfl

theorem insertRoute_eq (routes : List (U × RouteAccumulator)) (url : U)
    (method : WebAssessmentMethod) (names : Finset String) (limit : Nat) :
    insertRoute routes url method (firstNames names) limit =
      (put limit freshRoute addRoute routes (url, method, names), crowds limit routes url,
        (lookup url routes).any fun route => routeOverflow route (method, names)) := by
  unfold insertRoute put
  dsimp only
  cases hlook : lookup url routes with
  | some route => simp [crowds, hlook, addRoute, routeOverflow]
  | none =>
    rw [crowds_of_new hlook, nameSet_firstNames]
    by_cases hzero : limit = 0
    · simp [hzero]
    · have hlength := length_insertEntry url (freshRoute (method, names)) routes
      by_cases hfull : limit ≤ routes.length
      · simp [hzero, freshRoute, length_insertEntry, hfull, Nat.lt_succ_of_le hfull]
      · simp [hzero, freshRoute, length_insertEntry, hfull, show ¬limit < routes.length + 1 by omega]

theorem insertForm_eq (forms : List (FormKey U × FormAccumulator)) (key : FormKey U)
    (names controls : Finset String) (limit : Nat) :
    insertForm forms ⟨(ofLex key).1, (ofLex key).2, firstNames names, firstNames controls⟩ limit =
      (put limit freshForm addForm forms (key, names, controls), crowds limit forms key,
        (lookup key forms).any fun form => controlOverflow form (names, controls),
        (lookup key forms).any fun form => queryOverflow form (names, controls)) := by
  unfold insertForm put
  dsimp only
  rw [show toLex ((ofLex key).1, (ofLex key).2) = key from rfl]
  cases hlook : lookup key forms with
  | some form => simp [crowds, hlook, addForm, queryOverflow, controlOverflow]
  | none =>
    rw [crowds_of_new hlook, nameSet_firstNames, nameSet_firstNames]
    by_cases hzero : limit = 0
    · simp [hzero]
    · by_cases hfull : limit ≤ forms.length
      · simp [hzero, freshForm, length_insertEntry, hfull, Nat.lt_succ_of_le hfull]
      · simp [hzero, freshForm, length_insertEntry, hfull, show ¬limit < forms.length + 1 by omega]

/-! ### What a walk makes of its findings -/

def Finding.routePart : Finding U → Option (U × RoutePart)
  | .route url method names _ => some (url, method, names)
  | .form key names _ _ _ => if (ofLex key).2 = .get then some ((ofLex key).1, .get, names) else none
  | _ => none

def Finding.formPart : Finding U → Option (FormKey U × FormPart)
  | .form key names controls _ _ => some (key, names, controls)
  | _ => none

def Finding.namesDropped : Finding U → Bool
  | .route _ _ _ dropped => dropped
  | .form _ _ _ dropped _ => dropped
  | _ => false

def Finding.controlsDropped : Finding U → Bool
  | .form _ _ _ _ dropped => dropped
  | _ => false

def routeParts (findings : List (Finding U)) : List (U × RoutePart) :=
  findings.filterMap Finding.routePart

def formParts (findings : List (Finding U)) : List (FormKey U × FormPart) :=
  findings.filterMap Finding.formPart

/-- The maps and flags after some findings. -/
structure Observed (findings : List (Finding U)) (progress : Progress U) : Prop where
  routes_eq : progress.routes =
    entriesOf limits.maxReferencesPerDocument freshRoute addRoute (routeParts findings)
  forms_eq : progress.forms = entriesOf limits.maxForms freshForm addForm (formParts findings)
  routeLimit : progress.result.routeLimitReached = true ↔
    limits.maxReferencesPerDocument < (keys (routeParts findings)).card
  formLimit : progress.result.formLimitReached = true ↔
    limits.maxForms < (keys (formParts findings)).card
  urlByteLimit : progress.result.urlByteLimitReached = true ↔ Finding.urlByteLimit ∈ findings
  outsideOrigin : progress.result.outsideOriginReferenceCount =
    min (findings.count .outsideOrigin) u64Max
  queryLimit : progress.result.queryNameLimitReached = true ↔
    (∃ finding ∈ findings, finding.namesDropped = true) ∨
    Meets limits.maxReferencesPerDocument freshRoute addRoute
      (fun route part => routeOverflow route part = true) (routeParts findings) ∨
    Meets limits.maxForms freshForm addForm (fun form part => queryOverflow form part = true)
      (formParts findings)
  controlLimit : progress.result.controlLimitReached = true ↔
    (∃ finding ∈ findings, finding.controlsDropped = true) ∨
    Meets limits.maxForms freshForm addForm (fun form part => controlOverflow form part = true)
      (formParts findings)

variable {limits} {findings : List (Finding U)} {progress : Progress U}

omit [LinearOrder U] in
theorem routeParts_concat (findings : List (Finding U)) (finding : Finding U) :
    routeParts (findings ++ [finding]) = routeParts findings ++ finding.routePart.toList := by
  rw [routeParts, List.filterMap_append]
  cases hpart : finding.routePart <;> simp [routeParts, hpart]

omit [LinearOrder U] in
theorem formParts_concat (findings : List (Finding U)) (finding : Finding U) :
    formParts (findings ++ [finding]) = formParts findings ++ finding.formPart.toList := by
  rw [formParts, List.filterMap_append]
  cases hpart : finding.formPart <;> simp [formParts, hpart]

omit [LinearOrder U] in
theorem exists_concat {P : Finding U → Prop} {finding : Finding U} :
    (∃ found ∈ findings ++ [finding], P found) ↔ (∃ found ∈ findings, P found) ∨ P finding := by
  simp [or_and_right, exists_or]

theorem count_concat {finding : Finding U} (h : finding ≠ .outsideOrigin) :
    (findings ++ [finding]).count .outsideOrigin = findings.count .outsideOrigin := by
  rw [List.count_append, List.count_singleton, if_neg (by simpa using h), Nat.add_zero]

omit [LinearOrder U] in
theorem mem_concat {finding : Finding U} (h : finding ≠ .urlByteLimit) :
    Finding.urlByteLimit ∈ findings ++ [finding] ↔ Finding.urlByteLimit ∈ findings := by
  simp [Ne.symm h]

variable (h : Observed limits findings progress)

include h

/-- A finding that is neither a route nor a form. -/
theorem Observed.partless {finding : Finding U}
    (hrt : finding.routePart = none) (hform : finding.formPart = none)
    (hns : finding.namesDropped = false) (hcont : finding.controlsDropped = false)
    {result : ParsedDocument U}
    (hflags : result = { progress.result with
      urlByteLimitReached := result.urlByteLimitReached
      outsideOriginReferenceCount := result.outsideOriginReferenceCount })
    (hbs : result.urlByteLimitReached = true ↔ Finding.urlByteLimit ∈ findings ++ [finding])
    (houts : result.outsideOriginReferenceCount =
      min ((findings ++ [finding]).count .outsideOrigin) u64Max) :
    Observed limits (findings ++ [finding]) { progress with result } := by
  have hroutes : routeParts (findings ++ [finding]) = routeParts findings := by
    rw [routeParts_concat, hrt]
    exact List.append_nil _
  have hfm : formParts (findings ++ [finding]) = formParts findings := by
    rw [formParts_concat, hform]
    exact List.append_nil _
  have hnone : ¬finding.namesDropped = true := hns ▸ Bool.false_ne_true
  have hnone' : ¬finding.controlsDropped = true := hcont ▸ Bool.false_ne_true
  refine ⟨?_, ?_, ?_, ?_, hbs, houts, ?_, ?_⟩
  · rw [hroutes]
    exact h.routes_eq
  · rw [hfm]
    exact h.forms_eq
  · rw [hroutes, hflags]
    exact h.routeLimit
  · rw [hfm, hflags]
    exact h.formLimit
  · rw [hroutes, hfm, exists_concat, or_iff_left hnone, hflags]
    exact h.queryLimit
  · rw [hfm, exists_concat, or_iff_left hnone', hflags]
    exact h.controlLimit

theorem Observed.outside :
    Observed limits (findings ++ [.outsideOrigin]) (apply limits progress .outsideOrigin) := by
  refine h.partless rfl rfl rfl rfl rfl ?_ ?_
  · rw [mem_concat (by simp)]
    exact h.urlByteLimit
  · have hcnt : (findings ++ [Finding.outsideOrigin]).count Finding.outsideOrigin =
        findings.count Finding.outsideOrigin + 1 := by simp
    rw [hcnt]
    change saturatingAdd u64Max progress.result.outsideOriginReferenceCount 1 = _
    rw [h.outsideOrigin, saturatingAdd]
    omega

theorem Observed.byteLimit :
    Observed limits (findings ++ [.urlByteLimit]) (apply limits progress .urlByteLimit) := by
  refine h.partless rfl rfl rfl rfl rfl (iff_of_true rfl (by simp)) ?_
  rw [count_concat (by simp)]
  exact h.outsideOrigin

theorem Observed.route (url : U)
    (method : WebAssessmentMethod) (names : Finset String) (dropped : Bool) :
    Observed limits (findings ++ [.route url method names dropped])
      (apply limits progress (.route url method names dropped)) := by
  have hroutes : routeParts (findings ++ [.route url method names dropped]) =
      routeParts findings ++ [(url, method, names)] := routeParts_concat _ _
  have hfm : formParts (findings ++ [.route url method names dropped]) = formParts findings :=
    (formParts_concat _ _).trans (List.append_nil _)
  unfold apply
  dsimp only
  simp only [insertRoute_eq, h.routes_eq]
  refine ⟨?_, ?_, ?_, ?_, ?_, ?_, ?_, ?_⟩
  · rw [hroutes, entriesOf_concat]
  · rw [hfm]
    exact h.forms_eq
  · rw [hroutes]
    exact crowds_concat h.routeLimit (url, method, names)
  · rw [hfm]
    exact h.formLimit
  · rw [mem_concat (by simp)]
    exact h.urlByteLimit
  · rw [count_concat (by simp)]
    exact h.outsideOrigin
  · have hdrop : (Finding.route url method names dropped).namesDropped = dropped := rfl
    rw [hroutes, hfm, exists_concat, meets_concat, hdrop]
    simp only [Bool.or_eq_true, h.queryLimit, any_lookup]
    exact or_assoc.trans (or_or_or_comm.trans (or_congr_right or_right_comm))
  · have hnone : ¬(Finding.route url method names dropped).controlsDropped = true :=
      Bool.false_ne_true
    rw [hfm, exists_concat, or_iff_left hnone]
    exact h.controlLimit

theorem Observed.form (key : FormKey U)
    (names controls : Finset String) (dropped controlsDropped : Bool) :
    Observed limits (findings ++ [.form key names controls dropped controlsDropped])
      (apply limits progress (.form key names controls dropped controlsDropped)) := by
  have hfm : formParts (findings ++ [.form key names controls dropped controlsDropped]) =
      formParts findings ++ [(key, names, controls)] := formParts_concat _ _
  have hns : (Finding.form key names controls dropped controlsDropped).namesDropped = dropped :=
    rfl
  have hcont : (Finding.form key names controls dropped controlsDropped).controlsDropped =
      controlsDropped := rfl
  unfold apply insertFormRoute
  dsimp only
  by_cases hget : (ofLex key).2 = .get
  · have hroutes : routeParts (findings ++ [.form key names controls dropped controlsDropped]) =
        routeParts findings ++ [((ofLex key).1, .get, names)] := by
      rw [routeParts_concat, Finding.routePart, if_pos hget]
      rfl
    rw [if_pos hget]
    simp only [insertRoute_eq, insertForm_eq, h.routes_eq, h.forms_eq]
    refine ⟨?_, ?_, ?_, ?_, ?_, ?_, ?_, ?_⟩
    · rw [hroutes, entriesOf_concat]
    · rw [hfm, entriesOf_concat]
    · rw [hroutes]
      exact crowds_concat h.routeLimit ((ofLex key).1, .get, names)
    · rw [hfm]
      exact crowds_concat h.formLimit (key, names, controls)
    · rw [mem_concat (by simp)]
      exact h.urlByteLimit
    · rw [count_concat (by simp)]
      exact h.outsideOrigin
    · rw [hroutes, hfm, exists_concat, meets_concat, meets_concat, hns]
      simp only [Bool.or_eq_true, h.queryLimit, any_lookup]
      refine or_assoc.trans (or_assoc.trans (or_or_or_comm.trans (or_congr_right ?_)))
      exact or_or_or_comm
    · rw [hfm, exists_concat, meets_concat, hcont]
      simp only [Bool.or_eq_true, h.controlLimit, any_lookup]
      exact or_assoc.trans or_or_or_comm
  · have hroutes : routeParts (findings ++ [.form key names controls dropped controlsDropped]) =
        routeParts findings := by
      rw [routeParts_concat, Finding.routePart, if_neg hget]
      exact List.append_nil _
    rw [if_neg hget]
    simp only [insertForm_eq, h.routes_eq, h.forms_eq]
    refine ⟨?_, ?_, ?_, ?_, ?_, ?_, ?_, ?_⟩
    · rw [hroutes]
    · rw [hfm, entriesOf_concat]
    · rw [hroutes]
      exact h.routeLimit
    · rw [hfm]
      exact crowds_concat h.formLimit (key, names, controls)
    · rw [mem_concat (by simp)]
      exact h.urlByteLimit
    · rw [count_concat (by simp)]
      exact h.outsideOrigin
    · rw [hroutes, hfm, exists_concat, meets_concat, hns]
      simp only [Bool.or_eq_true, h.queryLimit, any_lookup]
      exact or_assoc.trans (or_or_or_comm.trans (or_congr_right or_assoc))
    · rw [hfm, exists_concat, meets_concat, hcont]
      simp only [Bool.or_eq_true, h.controlLimit, any_lookup]
      exact or_assoc.trans or_or_or_comm

theorem Observed.apply (finding : Finding U) :
    Observed limits (findings ++ [finding]) (Discovery.apply limits progress finding) := by
  cases finding with
  | outsideOrigin => exact h.outside
  | urlByteLimit => exact h.byteLimit
  | route url method names dropped => exact h.route url method names dropped
  | form key names controls dropped controlsDropped => exact h.form key names controls dropped _

omit h

theorem observed_nil : Observed limits [] ({} : Progress U) where
  routes_eq := rfl
  forms_eq := rfl
  routeLimit := by simp [routeParts, keys]
  formLimit := by simp [formParts, keys]
  urlByteLimit := by simp
  outsideOrigin := by simp
  queryLimit := by simp [routeParts, formParts, meets_nil]
  controlLimit := by simp [formParts, meets_nil]

variable (limits)

/-- What is found in a document, in its order. -/
def findingsIn (document : Handle) : List (Finding U) :=
  (document.preorder.filterMap elementOf).filterMap
    (findingOf crate documentUrl limits (firstDocumentBase crate document documentUrl))

/-- **A walk leaves the bounded maps of its findings.** -/
theorem observed_walk (document : Handle) :
    Observed limits (findingsIn crate documentUrl limits document) (Tree.walk (fun _ => true)
        (visit crate documentUrl (firstDocumentBase crate document documentUrl) limits) [document]
        {}) := by
  rw [Tree.walk_eq_foldl, Tree.visitedAll_singleton]
  generalize hbase : firstDocumentBase crate document documentUrl = baseUrl
  rw [findingsIn, hbase, Tree.preorder]
  generalize Tree.visited (fun _ => true) document = nodes
  induction nodes using List.reverseRecOn with
  | nil => exact observed_nil
  | append_singleton nodes node ih =>
    rw [List.foldl_append, List.foldl_cons, List.foldl_nil, visit_eq, List.filterMap_append,
      List.filterMap_append]
    cases helem : elementOf node with
    | none => simpa [helem] using ih
    | some element =>
      cases hfind : findingOf crate documentUrl limits baseUrl element with
      | none => simpa [helem, hfind, applyElement] using ih
      | some finding => simpa [helem, hfind, applyElement] using ih.apply finding

end Termivar.Discovery
