/-
# Discovery in an HTML document

`termivar-scanner/src/web_runtime/web_assessment/discovery.rs`: a walk over the
document finds the references of links, areas and anchors and the actions of
forms, and keeps of those of the document's origin the canonical URLs with the
names of their query parameters, and the forms with the names of their
controls; never a value. All of it is bounded: from the sorted maps and sets
the last entry is taken out where there is one too many.

The parsed document is a tree, the `url` crate a parameter. URLs compare as
their serializations do, so the parameter's order stands for it. Sorted maps and
sets are the lists of their entries. A function that raises a flag of the
result returns whether it does.
-/
import Termivar.Artifact.Builder
import Termivar.SortedPrefix
import Termivar.Tree

namespace Termivar.Discovery

open SortedPrefix

def hardMaxDiscoveryNameBytes : Nat := 256
def hardMaxDiscoveryNamesPerReference : Nat := 256
def hardMaxWebAssessmentReferencesPerDocument : Nat := 2048
def hardMaxWebAssessmentCanonicalUrlBytes : Nat := 8192
def hardMaxWebAssessmentForms : Nat := 1024
def hardMaxWebAssessmentControlsPerForm : Nat := 256
def hardMaxWebAssessmentQueryNames : Nat := 256

/-- The limits discovery reads, with the checks of their setters. -/
structure WebAssessmentLimits where
  (maxReferencesPerDocument maxCanonicalUrlBytes maxForms maxControlsPerForm : Nat)
  maxQueryParameterNames : Nat
  references : maxReferencesPerDocument ≤ hardMaxWebAssessmentReferencesPerDocument
  canonicalUrl : maxCanonicalUrlBytes ≠ 0 ∧
    maxCanonicalUrlBytes ≤ hardMaxWebAssessmentCanonicalUrlBytes
  forms : maxForms ≤ hardMaxWebAssessmentForms
  controls : maxControlsPerForm ≤ hardMaxWebAssessmentControlsPerForm
  queryNames : maxQueryParameterNames ≤ hardMaxWebAssessmentQueryNames

/-- What discovery uses of the `url` crate. -/
structure UrlCrate (U : Type) where
  join : U → String → Option U
  asStr : U → String
  scheme : U → String
  hasHost : U → Bool
  username : U → String
  password : U → Option String
  sameOrigin : U → U → Bool
  path : U → String
  query : U → Option String
  fragment : U → Option String
  queryPairs : U → List (String × String)
  setPath : U → String → U
  setQuery : U → Option String → U
  setFragment : U → Option String → U

/-! ### The document -/

/-- `noNamespace` tells whether the attribute's namespace is the empty one. -/
structure Attribute where
  noNamespace : Bool
  (localName value : String)

inductive NodeData where
  | element (inHtml : Bool) (localName : String) (attrs : List Attribute)
  | other

/-- A handle: a node and what is below it. -/
abbrev Handle : Type := Tree NodeData

def htmlAttribute (attrs : List Attribute) (localName : String) : Option String :=
  (attrs.find? fun attr => attr.noNamespace && attr.localName = localName).map Attribute.value

/-! ### What is kept -/

inductive WebAssessmentMethod where
  | get
  | head
  deriving DecidableEq

inductive WebAssessmentFormMethod where
  | get
  | post
  | dialog
  deriving DecidableEq

namespace WebAssessmentFormMethod

/-- The order of the declaration, which the source derives. -/
def place : WebAssessmentFormMethod → Nat
  | get => 0
  | post => 1
  | dialog => 2

theorem place_injective : Function.Injective place := by
  intro left right h
  cases left <;> cases right <;> first | rfl | cases h

instance : LinearOrder WebAssessmentFormMethod := LinearOrder.lift' place place_injective

end WebAssessmentFormMethod

variable {U : Type}

structure ParsedRoute (U : Type) where
  url : U
  method : WebAssessmentMethod
  queryParameterNames : List String
  deriving DecidableEq

structure ParsedForm (U : Type) where
  action : U
  method : WebAssessmentFormMethod
  (queryParameterNames controlNames : List String)

structure ParsedDocument (U : Type) where
  routes : List (ParsedRoute U) := []
  forms : List (ParsedForm U) := []
  routeLimitReached : Bool := false
  formLimitReached : Bool := false
  controlLimitReached : Bool := false
  queryNameLimitReached : Bool := false
  urlByteLimitReached : Bool := false
  outsideOriginReferenceCount : Nat := 0

/-! ### Names -/

inductive NameDisposition where
  | accepted
  | tooLong
  | inert
  deriving DecidableEq

def nameDisposition (name : String) : NameDisposition :=
  if name.isEmpty || name.toList.any isControl then .inert
  else if name.utf8ByteSize > hardMaxDiscoveryNameBytes then .tooLong
  else .accepted

/-- A name in turn: the set after it, and whether a limit was reached. -/
def insertName (names : List String × Bool) (name : String) : List String × Bool :=
  match nameDisposition name with
  | .accepted =>
    let (inserted, dropped) := insertBounded hardMaxDiscoveryNamesPerReference name names.1
    (inserted, names.2 || dropped)
  | .tooLong => (names.1, true)
  | .inert => names

def boundedQueryNames (crate : UrlCrate U) (url : U) (limit : Nat) : List String × Bool :=
  let (names, hardLimitReached) := ((crate.queryPairs url).map Prod.fst).foldl insertName ([], false)
  (names.take limit, hardLimitReached || decide (names.length > limit))

def mergeNames (target names : List String) : List String × Bool :=
  collect hardMaxDiscoveryNamesPerReference names target

/-! ### References -/

/-- `str::trim`. -/
def trim (text : String) : String :=
  String.ofList ((text.toList.dropWhile isWhitespace).reverse.dropWhile isWhitespace).reverse

def supportedUncredentialedUrl (crate : UrlCrate U) (url : U) : Bool :=
  (crate.scheme url = "http" || crate.scheme url = "https") && crate.hasHost url &&
    (crate.username url).isEmpty && (crate.password url).isNone

inductive ReferenceResolution (U : Type) where
  | accepted (url : U) (queryParameterNames : List String) (queryLimitReached : Bool)
  | outsideOrigin
  | urlByteLimit
  | inert

/-- Without its fragment and query, and with a path. -/
def canonicalUrl (crate : UrlCrate U) (url : U) : U :=
  let url := crate.setQuery (crate.setFragment url none) none
  if (crate.path url).isEmpty then crate.setPath url "/" else url

def resolveReference (crate : UrlCrate U) (baseUrl : U) (rawReference : String) (authorizedUrl : U)
    (limits : WebAssessmentLimits) : ReferenceResolution U :=
  let reference := trim rawReference
  if reference.utf8ByteSize > limits.maxCanonicalUrlBytes then .urlByteLimit
  else
    match crate.join baseUrl reference with
    | none => .inert
    | some url =>
      if !supportedUncredentialedUrl crate url then .inert
      else if !crate.sameOrigin url authorizedUrl then .outsideOrigin
      else
        let (names, hardLimitReached) :=
          boundedQueryNames crate url hardMaxDiscoveryNamesPerReference
        let queryLimitReached :=
          hardLimitReached || decide (names.length > limits.maxQueryParameterNames)
        let url := canonicalUrl crate url
        if (crate.asStr url).utf8ByteSize > limits.maxCanonicalUrlBytes then .urlByteLimit
        else .accepted url names queryLimitReached

def routeAttribute (localName : String) : Option (String × WebAssessmentMethod) :=
  if localName = "a" ∨ localName = "area" then some ("href", .get)
  else if localName = "link" then some ("href", .head)
  else none

/-- The reference of the first base element that has one. -/
def baseReference : NodeData → Option String
  | .element true localName attrs => if localName = "base" then htmlAttribute attrs "href" else none
  | _ => none

def firstDocumentBase (crate : UrlCrate U) (root : Handle) (documentUrl : U) : U :=
  match Tree.search baseReference [root] with
  | some reference =>
    ((crate.join documentUrl (trim reference)).filter
      (supportedUncredentialedUrl crate)).getD documentUrl
  | none => documentUrl

/-! ### Maps of routes and forms -/

structure RouteAccumulator where
  method : WebAssessmentMethod
  queryParameterNames : List String

structure FormAccumulator where
  (queryParameterNames controlNames : List String)

/-- `collect` of a vector into a set. -/
def nameSet (names : List String) : List String :=
  names.foldl (fun set name => insertSorted name set) []

variable [LinearOrder U]

/-- The routes after the insertion, whether the route limit was reached, and
whether the query limit was. -/
def insertRoute (routes : List (U × RouteAccumulator)) (url : U) (method : WebAssessmentMethod)
    (queryParameterNames : List String) (limit : Nat) : List (U × RouteAccumulator) × Bool × Bool :=
  match lookup url routes with
  | some route =>
    let merged := mergeNames route.queryParameterNames queryParameterNames
    (modify url (fun route =>
        { method := if method = .get then .get else route.method,
          queryParameterNames := (mergeNames route.queryParameterNames queryParameterNames).1 }) routes,
      false, merged.2)
  | none =>
    if limit = 0 then (routes, true, false)
    else
      let routes := insertEntry url ⟨method, nameSet queryParameterNames⟩ routes
      if routes.length > limit then (routes.dropLast, true, false) else (routes, false, false)

/-- The key of a form: its action, then its method. -/
abbrev FormKey (U : Type) : Type := U ×ₗ WebAssessmentFormMethod

/-- The forms after the insertion, and whether the form limit, the control limit
and the query limit were reached. -/
def insertForm (forms : List (FormKey U × FormAccumulator)) (form : ParsedForm U) (limit : Nat) :
    List (FormKey U × FormAccumulator) × Bool × Bool × Bool :=
  let key : FormKey U := toLex (form.action, form.method)
  match lookup key forms with
  | some existing =>
    let query := mergeNames existing.queryParameterNames form.queryParameterNames
    let controls := mergeNames existing.controlNames form.controlNames
    (modify key (fun existing =>
        { queryParameterNames := (mergeNames existing.queryParameterNames form.queryParameterNames).1,
          controlNames := (mergeNames existing.controlNames form.controlNames).1 }) forms,
      false, controls.2, query.2)
  | none =>
    if limit = 0 then (forms, true, false, false)
    else
      let forms := insertEntry key
        ⟨nameSet form.queryParameterNames, nameSet form.controlNames⟩ forms
      if forms.length > limit then (forms.dropLast, true, false, false)
      else (forms, false, false, false)

/-! ### Forms -/

def isHtmlForm : NodeData → Bool
  | .element inHtml localName _ => inHtml && localName = "form"
  | .other => false

/-- The name of a control that belongs to the form around it. -/
def controlName : NodeData → Option String
  | .element inHtml localName attrs =>
    if inHtml && localName ∈ ["input", "select", "textarea", "button"] &&
        (htmlAttribute attrs "form").isNone then htmlAttribute attrs "name"
    else none
  | .other => none

def visitControl (controls : List String × Bool) (child : Handle) : List String × Bool :=
  match controlName child.data with
  | some name => insertName controls name
  | none => controls

/-- `eq_ignore_ascii_case`. -/
def eqIgnoreAsciiCase (left right : String) : Bool :=
  left.toList.map Char.toLower = right.toList.map Char.toLower

def formMethod (attrs : List Attribute) : WebAssessmentFormMethod :=
  match htmlAttribute attrs "method" with
  | some value =>
    if eqIgnoreAsciiCase value "post" then .post
    else if eqIgnoreAsciiCase value "dialog" then .dialog
    else .get
  | none => .get

def parseForm (crate : UrlCrate U) (handle : Handle) (attrs : List Attribute) (documentUrl baseUrl : U)
    (limits : WebAssessmentLimits) (result : ParsedDocument U) :
    Option (ParsedForm U) × ParsedDocument U :=
  let reference := (htmlAttribute attrs "action").getD ""
  let resolutionBase := if (trim reference).isEmpty then documentUrl else baseUrl
  let resolved := if (trim reference).isEmpty then crate.asStr documentUrl else trim reference
  match resolveReference crate resolutionBase resolved documentUrl limits with
  | .accepted action queryParameterNames queryLimitReached =>
    let (controlNames, controlLimitReached) :=
      Tree.walk (fun data => !isHtmlForm data) visitControl handle.children ([], false)
    (some { action, method := formMethod attrs, queryParameterNames, controlNames },
      { result with
        queryNameLimitReached := result.queryNameLimitReached || queryLimitReached
        controlLimitReached := result.controlLimitReached || controlLimitReached })
  | .outsideOrigin =>
    (none, { result with
      outsideOriginReferenceCount := saturatingAdd u64Max result.outsideOriginReferenceCount 1 })
  | .urlByteLimit => (none, { result with urlByteLimitReached := true })
  | .inert => (none, result)

/-! ### The walk -/

/-- The state of the walk. -/
structure Progress (U : Type) where
  routes : List (U × RouteAccumulator) := []
  forms : List (FormKey U × FormAccumulator) := []
  result : ParsedDocument U := {}

/-- A reference of a link, an area or an anchor. -/
def visitReference (crate : UrlCrate U) (documentUrl baseUrl : U) (limits : WebAssessmentLimits)
    (progress : Progress U) (reference : String) (method : WebAssessmentMethod) : Progress U :=
  let result := progress.result
  match resolveReference crate baseUrl reference documentUrl limits with
  | .accepted url names queryLimitReached =>
    let (routes, routeLimit, queryLimit) :=
      insertRoute progress.routes url method names limits.maxReferencesPerDocument
    { progress with
      routes
      result := { result with
        queryNameLimitReached := result.queryNameLimitReached || queryLimitReached || queryLimit
        routeLimitReached := result.routeLimitReached || routeLimit } }
  | .outsideOrigin =>
    { progress with result := { result with
        outsideOriginReferenceCount := saturatingAdd u64Max result.outsideOriginReferenceCount 1 } }
  | .urlByteLimit => { progress with result := { result with urlByteLimitReached := true } }
  | .inert => progress

/-- The action of an accepted form is a route if its method is `get`. -/
def insertFormRoute (limits : WebAssessmentLimits) (progress : Progress U) (form : ParsedForm U) :
    Progress U :=
  if form.method = .get then
    let (routes, routeLimit, queryLimit) := insertRoute progress.routes form.action .get
      form.queryParameterNames limits.maxReferencesPerDocument
    { progress with
      routes
      result := { progress.result with
        routeLimitReached := progress.result.routeLimitReached || routeLimit
        queryNameLimitReached := progress.result.queryNameLimitReached || queryLimit } }
  else progress

def visitForm (crate : UrlCrate U) (documentUrl baseUrl : U) (limits : WebAssessmentLimits)
    (progress : Progress U) (handle : Handle) (attrs : List Attribute) : Progress U :=
  match parseForm crate handle attrs documentUrl baseUrl limits progress.result with
  | (none, result) => { progress with result }
  | (some form, result) =>
    let progress := insertFormRoute limits { progress with result } form
    let (forms, formLimit, controlLimit, queryLimit) := insertForm progress.forms form limits.maxForms
    { progress with
      forms
      result := { progress.result with
        formLimitReached := progress.result.formLimitReached || formLimit
        controlLimitReached := progress.result.controlLimitReached || controlLimit
        queryNameLimitReached := progress.result.queryNameLimitReached || queryLimit } }

def visit (crate : UrlCrate U) (documentUrl baseUrl : U) (limits : WebAssessmentLimits)
    (progress : Progress U) (handle : Handle) : Progress U :=
  match handle.data with
  | .element true localName attrs =>
    match routeAttribute localName with
    | some (attr, method) =>
      match htmlAttribute attrs attr with
      | some reference =>
        visitReference crate documentUrl baseUrl limits progress reference method
      | none => progress
    | none =>
      if localName = "form" then visitForm crate documentUrl baseUrl limits progress handle attrs
      else progress
  | _ => progress

/-- The names beyond the limits are left out at the end. -/
def finish (limits : WebAssessmentLimits) (progress : Progress U) : ParsedDocument U :=
  let routeNamesDropped := progress.routes.any fun entry =>
    decide (entry.2.queryParameterNames.length > limits.maxQueryParameterNames)
  let formNamesDropped := progress.forms.any fun entry =>
    decide (entry.2.queryParameterNames.length > limits.maxQueryParameterNames)
  let controlsDropped := progress.forms.any fun entry =>
    decide (entry.2.controlNames.length > limits.maxControlsPerForm)
  { progress.result with
    routes := progress.routes.map fun (url, route) =>
      { url, method := route.method,
        queryParameterNames := route.queryParameterNames.take limits.maxQueryParameterNames }
    forms := progress.forms.map fun (key, form) =>
      { action := (ofLex key).1, method := (ofLex key).2,
        queryParameterNames := form.queryParameterNames.take limits.maxQueryParameterNames,
        controlNames := form.controlNames.take limits.maxControlsPerForm }
    queryNameLimitReached :=
      progress.result.queryNameLimitReached || routeNamesDropped || formNamesDropped
    controlLimitReached := progress.result.controlLimitReached || controlsDropped }

/-- `parse_document` of the tree that the HTML parser made. -/
def parseDocument (crate : UrlCrate U) (documentUrl : U) (document : Handle)
    (limits : WebAssessmentLimits) : ParsedDocument U :=
  let baseUrl := firstDocumentBase crate document documentUrl
  finish limits
    (Tree.walk (fun _ => true) (visit crate documentUrl baseUrl limits) [document] {})

end Termivar.Discovery
