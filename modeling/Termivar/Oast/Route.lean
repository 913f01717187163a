/-
# Request targets of the native provider

`NativeOastRoute::from_str` of `termivar-oast/src/protocol.rs`: a request
target is checked as bytes, cut at its first question mark, and its path is
taken apart from both ends. What it accepts is the canonical rendering of a
route, and for a callback an ignored query after it.

The source checks the bytes of the target. A character is one printable ASCII
byte, or all its bytes are above them, so the model checks characters.
-/
import Termivar.Command
import Termivar.Oast.Protocol

namespace Termivar.Oast

open ProviderError Checked List

def maxNativeOastRequestTargetBytes : Nat := 4096

/-- One exact canonical native-provider request target. -/
inductive NativeOastRoute where
  | register
  | allocate (sessionId : SessionId)
  | poll (sessionId : SessionId) (after : EventCursor)
  | cleanup (sessionId : SessionId)
  | callback (sessionId : SessionId) (callbackId : CallbackId)

/-- A byte that may stand in a request target. -/
def isTargetByte (c : Char) : Bool :=
  (0x21 ≤ c.toNat && c.toNat ≤ 0x7e) && !(c = '#' || c = '\\')

def parseRouteId (kind : OpaqueKind) (source : List Char) : Except ProviderError (OpaqueId kind) :=
  (OpaqueId.fromStr kind (String.ofList source)).mapError fun _ => invalidRequestTarget

def parsePollQuery (query : List Char) : Except ProviderError EventCursor := do
  let value ← okOr ((stripPrefix "after=".toList query).filter (· ≠ [])) invalidRequestTarget
  let parsed ← okOr (parseU64 value) invalidRequestTarget
  if value ≠ Nat.toDigits 10 parsed then throw invalidRequestTarget
  (EventCursor.new parsed).mapError fun _ => invalidRequestTarget

namespace NativeOastRoute

/-- The path after `/c/`. -/
def parseCallbackPath (callbackPath : List Char) : Except ProviderError NativeOastRoute := do
  let (sessionId, callbackId) ← okOr
    ((splitOnce '/' callbackPath).filter fun (_, callbackId) => !callbackId.contains '/')
    invalidRequestTarget
  let sessionId ← parseRouteId .session sessionId
  let callbackId ← parseRouteId .callback callbackId
  return .callback sessionId callbackId

/-- The path after `/v1/sessions/`. -/
def parseSessionRoute (sessionRoute : List Char) (query : Option (List Char)) :
    Except ProviderError NativeOastRoute :=
  match stripSuffix "/callbacks".toList sessionRoute with
  | some sessionId => do
    if query.isSome || sessionId.contains '/' then throw invalidRequestTarget
    let sessionId ← parseRouteId .session sessionId
    return .allocate sessionId
  | none =>
    match stripSuffix "/events".toList sessionRoute with
    | some sessionId => do
      if sessionId.contains '/' then throw invalidRequestTarget
      let query ← okOr query invalidRequestTarget
      let after ← parsePollQuery query
      let sessionId ← parseRouteId .session sessionId
      return .poll sessionId after
    | none => do
      if sessionRoute.contains '/' || query.isSome then throw invalidRequestTarget
      let sessionId ← parseRouteId .session sessionRoute
      return .cleanup sessionId

/-- A checked target: its path and what follows its first question mark. -/
def parseParts (path : List Char) (query : Option (List Char)) :
    Except ProviderError NativeOastRoute :=
  if path = "/v1/sessions".toList then
    if query.isNone then .ok .register else .error invalidRequestTarget
  else
    match stripPrefix "/c/".toList path with
    | some callbackPath => parseCallbackPath callbackPath
    | none =>
      if query.isSome && (stripSuffix "/events".toList path).isNone then .error invalidRequestTarget
      else
        match stripPrefix "/v1/sessions/".toList path with
        | some sessionRoute => parseSessionRoute sessionRoute query
        | none => .error invalidRequestTarget

def fromStr (source : String) : Except ProviderError NativeOastRoute :=
  let cs := source.toList
  if cs = [] ∨ source.utf8ByteSize > maxNativeOastRequestTargetBytes ∨ cs.head? ≠ some '/' ∨
      cs.any (fun c => !isTargetByte c) then .error invalidRequestTarget
  else
    match splitOnce '?' cs with
    | some (path, query) => parseParts path (some query)
    | none => parseParts cs none

/-! ### The canonical targets -/

/-- The characters of the canonical target of a route. -/
def renderChars : NativeOastRoute → List Char
  | .register => "/v1/sessions".toList
  | .allocate sessionId => "/v1/sessions/".toList ++ sessionId.text.toList ++ "/callbacks".toList
  | .poll sessionId after => "/v1/sessions/".toList ++ sessionId.text.toList ++
      "/events?after=".toList ++ Nat.toDigits 10 after.value
  | .cleanup sessionId => "/v1/sessions/".toList ++ sessionId.text.toList
  | .callback sessionId callbackId =>
    "/c/".toList ++ sessionId.text.toList ++ '/' :: callbackId.text.toList

/-- The canonical target of a route. -/
def render (route : NativeOastRoute) : String := String.ofList route.renderChars

/-- A route of the management protocol. -/
def isManagement : NativeOastRoute → Bool
  | .callback .. => false
  | _ => true

end NativeOastRoute

/-- The source is a target of the route: its canonical rendering, and for a
callback perhaps a query after it. -/
def IsTargetOf (source : String) (route : NativeOastRoute) : Prop :=
  source = route.render ∨
    (route.isManagement = false ∧ source.utf8ByteSize ≤ maxNativeOastRequestTargetBytes ∧
      ∃ query : List Char, source = String.ofList (route.renderChars ++ '?' :: query) ∧
        ∀ c ∈ query, (0x21 ≤ c.toNat ∧ c.toNat ≤ 0x7e) ∧ c ≠ '#' ∧ c ≠ '\\')

/-! ### Parts of a target -/

theorem urlSafe_toNat {c : Char} (h : Base64.isUrlSafe c = true) :
    (0x30 ≤ c.toNat ∧ c.toNat ≤ 0x7a) ∨ c.toNat = 0x2d := by
  simp only [Base64.isUrlSafe, Char.isAlphanum, Char.isAlpha, Char.isUpper, Char.isLower, Char.isDigit,
    Bool.or_eq_true, Bool.and_eq_true, decide_eq_true_eq, ge_iff_le, UInt32.le_iff_toNat_le] at h
  rcases h with (((h | h) | h) | rfl) | rfl
  · exact .inl ⟨le_trans (by decide) h.1, le_trans h.2 (by decide)⟩
  · exact .inl ⟨le_trans (by decide) h.1, le_trans h.2 (by decide)⟩
  · exact .inl ⟨h.1, le_trans h.2 (by decide)⟩
  · exact .inr rfl
  · exact .inl (by decide)

/-- The characters of an identity are no separators, and may stand in a target. -/
theorem OpaqueId.char_spec {kind : OpaqueKind} (id : OpaqueId kind) {c : Char}
    (h : c ∈ id.text.toList) : isTargetByte c = true ∧ c ≠ '/' ∧ c ≠ '?' := by
  have hcan := id.canonical
  simp only [isOpaqueText, Bool.and_eq_true, all_eq_true] at hcan
  have hsafe := hcan.1.2 c h
  have hnot : ∀ {d : Char}, Base64.isUrlSafe d = false → c ≠ d := by
    rintro d hd rfl
    rw [hd] at hsafe
    cases hsafe
  refine ⟨?_, hnot (by decide), hnot (by decide)⟩
  have hhash : c ≠ '#' := hnot (by decide)
  have hback : c ≠ '\\' := hnot (by decide)
  have hrg := urlSafe_toNat hsafe
  unfold isTargetByte
  simp only [hhash, hback, decide_false, Bool.or_self, Bool.not_false, Bool.and_true,
    Bool.and_eq_true, decide_eq_true_eq]
  omega

theorem OpaqueId.not_mem_slash {kind : OpaqueKind} (id : OpaqueId kind) : '/' ∉ id.text.toList :=
  fun h => (id.char_spec h).2.1 rfl

theorem OpaqueId.not_mem_question {kind : OpaqueKind} (id : OpaqueId kind) : '?' ∉ id.text.toList :=
  fun h => (id.char_spec h).2.2 rfl

/-- An identity is read from its own characters, and from no others. -/
theorem parseRouteId_eq_ok {kind : OpaqueKind} {cs : List Char} {id : OpaqueId kind} :
    parseRouteId kind cs = .ok id ↔ cs = id.text.toList := by
  unfold parseRouteId OpaqueId.fromStr
  constructor
  · intro h
    split_ifs at h with hcan
    · cases h
      simp
    · cases h
  · rintro rfl
    have hcan : isOpaqueText kind (String.ofList id.text.toList) = true := by
      rw [String.ofList_toList]
      exact id.canonical
    rw [dif_pos hcan]
    cases id
    simp [Except.mapError]

/-- A cursor is read from its decimal digits, and from nothing else. -/
theorem parsePollQuery_eq_ok {query : List Char} {after : EventCursor} :
    parsePollQuery query = .ok after ↔ query = "after=".toList ++ Nat.toDigits 10 after.value := by
  constructor
  · intro h
    have hwp : wp (parsePollQuery query)
        (fun after => query = "after=".toList ++ Nat.toDigits 10 after.value) (fun _ => True) := by
      unfold parsePollQuery
      simp only [wp_rules, implies_true, and_true, true_and]
      intro value hvalue parsed _ hdigs
      obtain ⟨hstrip, -⟩ := Option.filter_eq_some_iff.mp hvalue
      rw [stripPrefix_eq_some.mp hstrip, not_not.mp hdigs]
      unfold EventCursor.new
      split_ifs with hbdd
      · rfl
      · trivial
    rw [h] at hwp
    exact hwp
  · rintro rfl
    have hstrip : stripPrefix "after=".toList ("after=".toList ++ Nat.toDigits 10 after.value) =
        some (Nat.toDigits 10 after.value) := stripPrefix_eq_some.mpr rfl
    have hprs : parseU64 (Nat.toDigits 10 after.value) = some after.value :=
      parseU64_toDigits (le_trans after.bounded (by decide))
    have hcursor : EventCursor.new after.value = .ok after := dif_pos after.bounded
    unfold parsePollQuery
    rw [hstrip]
    simp only [Option.filter_some, Nat.toDigits_ne_nil, ne_eq, not_false_eq_true, decide_true, if_true,
      okOr, hprs, hcursor, not_true_eq_false, if_false, bind, Except.bind, Except.mapError]

/-! ### What is accepted is canonical -/

namespace NativeOastRoute

theorem parseCallbackPath_sound {callbackPath : List Char} {route : NativeOastRoute}
    (h : parseCallbackPath callbackPath = .ok route) :
    ∃ sessionId callbackId, route = .callback sessionId callbackId ∧
      callbackPath = sessionId.text.toList ++ '/' :: callbackId.text.toList := by
  have hwp : wp (parseCallbackPath callbackPath) (fun route =>
      ∃ sessionId callbackId, route = .callback sessionId callbackId ∧
        callbackPath = sessionId.text.toList ++ '/' :: callbackId.text.toList) (fun _ => True) := by
    unfold parseCallbackPath
    simp only [wp_rules, implies_true, and_true]
    rintro ⟨session, callback⟩ hpar
    obtain ⟨hspl, -⟩ := Option.filter_eq_some_iff.mp hpar
    obtain ⟨rfl, -⟩ := splitOnce_eq_some.mp hspl
    cases hsess : parseRouteId .session session with
    | error e => trivial
    | ok sessionId =>
      simp only [wp_ok]
      cases hcb : parseRouteId .callback callback with
      | error e => trivial
      | ok callbackId =>
        refine ⟨sessionId, callbackId, rfl, ?_⟩
        rw [parseRouteId_eq_ok.mp hsess, parseRouteId_eq_ok.mp hcb]
  rw [h] at hwp
  exact hwp

/-- The routes of a session, by the parts they are parsed from. -/
def SessionParts (sessionRoute : List Char) (query : Option (List Char)) : NativeOastRoute → Prop
  | .allocate sessionId => query = none ∧ sessionRoute = sessionId.text.toList ++ "/callbacks".toList
  | .poll sessionId after => query = some ("after=".toList ++ Nat.toDigits 10 after.value) ∧
      sessionRoute = sessionId.text.toList ++ "/events".toList
  | .cleanup sessionId => query = none ∧ sessionRoute = sessionId.text.toList
  | _ => False

theorem parseSessionRoute_sound {sessionRoute : List Char} {query : Option (List Char)}
    {route : NativeOastRoute} (h : parseSessionRoute sessionRoute query = .ok route) :
    SessionParts sessionRoute query route := by
  have hwp : wp (parseSessionRoute sessionRoute query) (SessionParts sessionRoute query)
      (fun _ => True) := by
    unfold parseSessionRoute
    split
    · rename_i session hsuffix
      simp only [wp_rules, implies_true, true_and, Bool.or_eq_true, not_or,
        Bool.not_eq_true, Option.isSome_eq_false_iff, Option.isNone_iff_eq_none]
      rintro ⟨rfl, -⟩
      cases hsess : parseRouteId .session session with
      | error e => trivial
      | ok sessionId =>
        exact ⟨rfl, by rw [stripSuffix_eq_some.mp hsuffix, parseRouteId_eq_ok.mp hsess]⟩
    · split
      · rename_i session hsuffix
        simp only [wp_rules, implies_true, true_and, and_true]
        rintro - value rfl
        cases hqry : parsePollQuery value with
        | error e => trivial
        | ok after =>
          simp only [wp_ok]
          cases hsess : parseRouteId .session session with
          | error e => trivial
          | ok sessionId =>
            exact ⟨by rw [parsePollQuery_eq_ok.mp hqry],
              by rw [stripSuffix_eq_some.mp hsuffix, parseRouteId_eq_ok.mp hsess]⟩
      · simp only [wp_rules, implies_true, true_and, Bool.or_eq_true, not_or,
          Bool.not_eq_true, Option.isSome_eq_false_iff, Option.isNone_iff_eq_none]
        rintro ⟨-, rfl⟩
        cases hsess : parseRouteId .session sessionRoute with
        | error e => trivial
        | ok sessionId => exact ⟨rfl, parseRouteId_eq_ok.mp hsess⟩
  rw [h] at hwp
  exact hwp

/-- The parts of a target, for every route. -/
def Parts (path : List Char) (query : Option (List Char)) : NativeOastRoute → Prop
  | .register => query = none ∧ path = "/v1/sessions".toList
  | .callback sessionId callbackId =>
    path = "/c/".toList ++ sessionId.text.toList ++ '/' :: callbackId.text.toList
  | route => ∃ sessionRoute, path = "/v1/sessions/".toList ++ sessionRoute ∧
      SessionParts sessionRoute query route

theorem parseParts_sound {path : List Char} {query : Option (List Char)} {route : NativeOastRoute}
    (h : parseParts path query = .ok route) : Parts path query route := by
  unfold parseParts at h
  by_cases hreg : path = "/v1/sessions".toList
  · rw [if_pos hreg] at h
    split_ifs at h with hqry
    cases h
    exact ⟨Option.isNone_iff_eq_none.mp hqry, hreg⟩
  · rw [if_neg hreg] at h
    cases hcb : stripPrefix "/c/".toList path with
    | some callbackPath =>
      simp only [hcb] at h
      obtain ⟨sessionId, callbackId, rfl, hpath⟩ := parseCallbackPath_sound h
      show path = _
      rw [stripPrefix_eq_some.mp hcb, hpath, append_assoc]
    | none =>
      simp only [hcb] at h
      split_ifs at h
      cases hsess : stripPrefix "/v1/sessions/".toList path with
      | none =>
        simp only [hsess] at h
        cases h
      | some sessionRoute =>
        simp only [hsess] at h
        have hpar := parseSessionRoute_sound h
        have hpath := stripPrefix_eq_some.mp hsess
        cases route with
        | register => exact hpar.elim
        | callback sessionId callbackId => exact hpar.elim
        | allocate sessionId => exact ⟨sessionRoute, hpath, hpar⟩
        | poll sessionId after => exact ⟨sessionRoute, hpath, hpar⟩
        | cleanup sessionId => exact ⟨sessionRoute, hpath, hpar⟩

/-- The target of the parts. -/
def joined (path : List Char) : Option (List Char) → List Char
  | none => path
  | some query => path ++ '?' :: query

/-- The parts of a management route join to its rendering. -/
theorem Parts.joined_eq {path : List Char} {query : Option (List Char)} {route : NativeOastRoute}
    (h : Parts path query route) (hrt : route.isManagement = true) :
    joined path query = route.renderChars := by
  cases route with
  | callback sessionId callbackId => cases hrt
  | register =>
    rw [h.1, h.2]
    rfl
  | allocate sessionId =>
    obtain ⟨sessionRoute, hpath, hqry, hsess⟩ := h
    rw [hpath, hqry, hsess]
    exact (append_assoc _ _ _).symm
  | poll sessionId after =>
    obtain ⟨sessionRoute, hpath, hqry, hsess⟩ := h
    have hevs : "/events?after=".toList = "/events".toList ++ '?' :: "after=".toList := by decide
    have hrender : renderChars (.poll sessionId after) = "/v1/sessions/".toList ++
        sessionId.text.toList ++ "/events?after=".toList ++ Nat.toDigits 10 after.value := rfl
    rw [hrender, hpath, hqry, hsess, hevs]
    show _ ++ '?' :: _ = _
    simp only [append_assoc, cons_append]
  | cleanup sessionId =>
    obtain ⟨sessionRoute, hpath, hqry, hsess⟩ := h
    rw [hpath, hqry, hsess]
    rfl

/-! ### What is canonical is accepted -/

section Complete

variable {path sessionRoute : List Char} {query : Option (List Char)} {route : NativeOastRoute}

theorem contains_slash {kind : OpaqueKind} (id : OpaqueId kind) :
    id.text.toList.contains '/' = false := by
  rw [← Bool.not_eq_true, contains_iff_mem]
  exact id.not_mem_slash

/-- An ending with a separator is no ending of an identity. -/
theorem stripSuffix_id {kind : OpaqueKind} (id : OpaqueId kind) {ending : List Char}
    (h : '/' ∈ ending) : stripSuffix ending id.text.toList = none := by
  cases hstrip : stripSuffix ending id.text.toList with
  | none => rfl
  | some rest =>
    have hid := stripSuffix_eq_some.mp hstrip
    exact absurd (hid ▸ mem_append_right rest h) id.not_mem_slash

/-- The two endings of session routes differ. -/
theorem stripSuffix_events (cs : List Char) :
    stripSuffix "/callbacks".toList (cs ++ "/events".toList) = none := by
  have hcbs : "/callbacks".toList.reverse =
      ['s', 'k', 'c', 'a', 'b', 'l', 'l', 'a', 'c', '/'] := by decide
  have hevs : "/events".toList.reverse = ['s', 't', 'n', 'e', 'v', 'e', '/'] := by decide
  unfold stripSuffix
  rw [reverse_append, hcbs, hevs]
  rfl

theorem SessionParts.complete (h : SessionParts sessionRoute query route) :
    parseSessionRoute sessionRoute query = .ok route := by
  cases route with
  | register => exact h.elim
  | callback sessionId callbackId => exact h.elim
  | allocate sessionId =>
    obtain ⟨hqry, hrt⟩ := h
    have hid : parseRouteId .session sessionId.text.toList = .ok sessionId :=
      parseRouteId_eq_ok.mpr rfl
    unfold parseSessionRoute
    rw [hrt, hqry, stripSuffix_eq_some.mpr rfl]
    simp only [Option.isSome_none, contains_slash, Bool.or_self, Bool.false_eq_true, if_false, hid]
    rfl
  | poll sessionId after =>
    obtain ⟨hqry, hrt⟩ := h
    have hid : parseRouteId .session sessionId.text.toList = .ok sessionId :=
      parseRouteId_eq_ok.mpr rfl
    have haft : parsePollQuery ("after=".toList ++ Nat.toDigits 10 after.value) = .ok after :=
      parsePollQuery_eq_ok.mpr rfl
    unfold parseSessionRoute
    rw [hrt, hqry, stripSuffix_events, stripSuffix_eq_some.mpr rfl]
    simp only [contains_slash, Bool.false_eq_true, if_false, okOr, hid, bind, Except.bind, haft]
    rfl
  | cleanup sessionId =>
    obtain ⟨hqry, hrt⟩ := h
    have hid : parseRouteId .session sessionId.text.toList = .ok sessionId :=
      parseRouteId_eq_ok.mpr rfl
    unfold parseSessionRoute
    rw [hrt, hqry, stripSuffix_id sessionId (by decide), stripSuffix_id sessionId (by decide)]
    simp only [Option.isSome_none, contains_slash, Bool.or_self, Bool.false_eq_true, if_false, hid]
    rfl

theorem parseCallbackPath_complete (sessionId : SessionId) (callbackId : CallbackId) :
    parseCallbackPath (sessionId.text.toList ++ '/' :: callbackId.text.toList) =
      .ok (.callback sessionId callbackId) := by
  have hspl : splitOnce '/' (sessionId.text.toList ++ '/' :: callbackId.text.toList) =
      some (sessionId.text.toList, callbackId.text.toList) :=
    splitOnce_eq_some.mpr ⟨rfl, sessionId.not_mem_slash⟩
  have hsess : parseRouteId .session sessionId.text.toList = .ok sessionId :=
    parseRouteId_eq_ok.mpr rfl
  have hcb : parseRouteId .callback callbackId.text.toList = .ok callbackId :=
    parseRouteId_eq_ok.mpr rfl
  unfold parseCallbackPath
  rw [hspl]
  simp only [Option.filter_some, contains_slash, Bool.not_false, if_true, okOr, bind, Except.bind,
    hsess, hcb]
  rfl

theorem sessions_chars : "/v1/sessions/".toList =
    ['/', 'v', '1', '/', 's', 'e', 's', 's', 'i', 'o', 'n', 's', '/'] := by decide

/-- The path of a session is neither that of the registration nor a callback's. -/
theorem parseParts_session (hpath : path = "/v1/sessions/".toList ++ sessionRoute)
    (hqry : query.isSome = true → (stripSuffix "/events".toList path).isSome = true) :
    parseParts path query = parseSessionRoute sessionRoute query := by
  have hreg : path ≠ "/v1/sessions".toList := by
    intro heq
    have hlength := congrArg length (hpath.symm.trans heq)
    rw [length_append, sessions_chars,
      show "/v1/sessions".toList.length = 12 by decide] at hlength
    simp only [length_cons, length_nil] at hlength
    omega
  have hcb : stripPrefix "/c/".toList path = none := by
    rw [hpath, sessions_chars, show "/c/".toList = ['/', 'c', '/'] by decide]
    rfl
  have hsess : stripPrefix "/v1/sessions/".toList path = some sessionRoute :=
    stripPrefix_eq_some.mpr hpath
  unfold parseParts
  rw [if_neg hreg, hcb, hsess]
  simp only
  rw [if_neg]
  simp only [Bool.and_eq_true, not_and, Bool.not_eq_true, Option.isNone_eq_false_iff]
  exact hqry

theorem Parts.complete (h : Parts path query route) : parseParts path query = .ok route := by
  cases route with
  | register =>
    obtain ⟨hqry, hpath⟩ := h
    unfold parseParts
    rw [if_pos hpath, hqry]
    rfl
  | callback sessionId callbackId =>
    have hpath : path = "/c/".toList ++ (sessionId.text.toList ++ '/' :: callbackId.text.toList) := by
      rw [← append_assoc]
      exact h
    have hreg : path ≠ "/v1/sessions".toList := by
      intro heq
      rw [hpath, show "/c/".toList = ['/', 'c', '/'] by decide, show "/v1/sessions".toList =
        ['/', 'v', '1', '/', 's', 'e', 's', 's', 'i', 'o', 'n', 's'] by decide] at heq
      simp at heq
    unfold parseParts
    rw [if_neg hreg, stripPrefix_eq_some.mpr hpath]
    exact parseCallbackPath_complete sessionId callbackId
  | allocate sessionId =>
    obtain ⟨sessionRoute, hpath, hpar⟩ := h
    rw [parseParts_session hpath (by rw [hpar.1]; exact fun h => nomatch h), hpar.complete]
  | poll sessionId after =>
    obtain ⟨sessionRoute, hpath, hpar⟩ := h
    rw [parseParts_session hpath fun _ => ?_, hpar.complete]
    rw [hpath, hpar.2, ← append_assoc, stripSuffix_eq_some.mpr rfl]
    rfl
  | cleanup sessionId =>
    obtain ⟨sessionRoute, hpath, hpar⟩ := h
    rw [parseParts_session hpath (by rw [hpar.1]; exact fun h => nomatch h), hpar.complete]

end Complete

/-! ### The whole target -/

section Targets

variable {source : String} {route : NativeOastRoute}

/-- Everything that is accepted is a target of its route. -/
theorem fromStr_sound (h : fromStr source = .ok route) : IsTargetOf source route := by
  unfold fromStr at h
  simp only at h
  split_ifs at h with hrefused
  simp only [not_or, not_lt, Bool.not_eq_true, any_eq_false] at hrefused
  obtain ⟨-, hsize, -, hbs⟩ := hrefused
  have hrend : ∀ {cs : List Char}, source.toList = cs → source = String.ofList cs := by
    rintro cs rfl
    exact String.ofList_toList.symm
  have hcan : ∀ {path : List Char} {query : Option (List Char)}, Parts path query route →
      route.isManagement = true → source.toList = joined path query → IsTargetOf source route :=
    fun hpar hman hsource =>
      .inl (hrend (hsource.trans (hpar.joined_eq hman)))
  cases hspl : splitOnce '?' source.toList with
  | none =>
    simp only [hspl] at h
    have hpar := parseParts_sound h
    cases hman : route.isManagement with
    | true => exact hcan hpar hman rfl
    | false =>
      cases route with
      | callback sessionId callbackId => exact .inl (hrend hpar)
      | _ => cases hman
  | some parts =>
    obtain ⟨path, query⟩ := parts
    simp only [hspl] at h
    have hpar := parseParts_sound h
    obtain ⟨hsource, -⟩ := splitOnce_eq_some.mp hspl
    cases hman : route.isManagement with
    | true => exact hcan hpar hman hsource
    | false =>
      cases route with
      | callback sessionId callbackId =>
        refine .inr ⟨rfl, hsize, query, hrend ?_, fun c hc => ?_⟩
        · rw [hsource]
          exact congrArg (· ++ '?' :: query) hpar
        · have hbyte := hbs c (hsource ▸ mem_append_right _ (mem_cons_of_mem _ hc))
          simpa [isTargetByte] using hbyte
      | _ => cases hman

/-- Parts that join to a checked target are parsed as their route. -/
theorem fromStr_of_parts {path : List Char} {query : Option (List Char)}
    (hpar : Parts path query route) (hpath : '?' ∉ path)
    (hsource : source.toList = joined path query)
    (hsize : source.utf8ByteSize ≤ maxNativeOastRequestTargetBytes)
    (hhead : source.toList.head? = some '/')
    (hbs : ∀ c ∈ source.toList, isTargetByte c = true) : fromStr source = .ok route := by
  have hchec : ¬ (source.toList = [] ∨ source.utf8ByteSize > maxNativeOastRequestTargetBytes ∨
      source.toList.head? ≠ some '/' ∨ (source.toList.any fun c => !isTargetByte c) = true) := by
    simp only [not_or, not_lt, Bool.not_eq_true, any_eq_false, gt_iff_lt, ne_eq, not_not]
    refine ⟨fun hnil => ?_, hsize, hhead, fun c hc => by rw [hbs c hc]; rfl⟩
    rw [hnil] at hhead
    cases hhead
  unfold fromStr
  simp only
  rw [if_neg hchec, hsource]
  cases query with
  | none =>
    rw [joined, splitOnce_eq_none.mpr hpath]
    exact hpar.complete
  | some query =>
    rw [joined, splitOnce_eq_some.mpr ⟨rfl, hpath⟩]
    exact hpar.complete

/-- Every route is rendered from its parts. -/
theorem exists_parts (route : NativeOastRoute) : ∃ path query, Parts path query route ∧ '?' ∉ path ∧
    route.renderChars = joined path query := by
  have hses : '?' ∉ "/v1/sessions/".toList := by decide
  have hsess : ∀ {sessionId : SessionId} {ending : List Char}, '?' ∉ ending →
      '?' ∉ "/v1/sessions/".toList ++ (sessionId.text.toList ++ ending) := by
    intro sessionId ending hending
    simp only [mem_append, not_or]
    exact ⟨hses, sessionId.not_mem_question, hending⟩
  have hfind : ∀ {path : List Char} {query : Option (List Char)}, Parts path query route →
      '?' ∉ path → route.isManagement = true →
      ∃ path query, Parts path query route ∧ '?' ∉ path ∧ route.renderChars = joined path query :=
    fun {path query} hpar hpath hrt => ⟨path, query, hpar, hpath, (hpar.joined_eq hrt).symm⟩
  cases route with
  | register => exact hfind ⟨rfl, rfl⟩ (by decide) rfl
  | allocate sessionId => exact hfind ⟨_, rfl, rfl, rfl⟩ (hsess (by decide)) rfl
  | poll sessionId after => exact hfind ⟨_, rfl, rfl, rfl⟩ (hsess (by decide)) rfl
  | cleanup sessionId =>
    refine hfind ⟨_, rfl, rfl, rfl⟩ ?_ rfl
    rw [← append_nil sessionId.text.toList]
    exact hsess not_mem_nil
  | callback sessionId callbackId =>
    refine ⟨_, none, rfl, ?_, rfl⟩
    simp only [mem_append, mem_cons, not_or]
    exact ⟨⟨by decide, sessionId.not_mem_question⟩, by decide, callbackId.not_mem_question⟩

theorem utf8Size_of_isTargetByte {c : Char} (h : isTargetByte c = true) : c.utf8Size = 1 := by
  have hsm : c.toNat ≤ 0x7e := by
    simp only [isTargetByte, Bool.and_eq_true, decide_eq_true_eq] at h
    exact h.1.2
  have hval : c.val ≤ 0x7f := by
    rw [UInt32.le_iff_toNat_le]
    exact le_trans hsm (by decide)
  unfold Char.utf8Size
  exact if_pos hval

theorem length_id {kind : OpaqueKind} (id : OpaqueId kind) : id.text.toList.length = kind.textBytes := by
  have hcan := id.canonical
  simp only [isOpaqueText, Bool.and_eq_true, decide_eq_true_eq] at hcan
  have hsize := byteSize_ascii fun c hc => utf8Size_of_isTargetByte (id.char_spec hc).1
  rw [String.ofList_toList, hcan.1.1] at hsize
  exact hsize.symm

theorem isTargetByte_digit {c : Char} (h : c.isDigit = true) : isTargetByte c = true := by
  have hhash : c ≠ '#' := by
    rintro rfl
    exact absurd h (by decide)
  have hback : c ≠ '\\' := by
    rintro rfl
    exact absurd h (by decide)
  simp only [Char.isDigit, Bool.and_eq_true, decide_eq_true_eq, ge_iff_le,
    UInt32.le_iff_toNat_le] at h
  have hlow : 0x21 ≤ c.toNat := le_trans (by decide) h.1
  have hhigh : c.toNat ≤ 0x7e := le_trans h.2 (by decide)
  simp [isTargetByte, hhash, hback, hlow, hhigh]

theorem renderChars_bytes (route : NativeOastRoute) :
    ∀ c ∈ route.renderChars, isTargetByte c = true := by
  have hid : ∀ {kind : OpaqueKind} {id : OpaqueId kind}, ∀ c ∈ id.text.toList, isTargetByte c = true :=
    fun c hc => (OpaqueId.char_spec _ hc).1
  have hjoin : ∀ {left right : List Char}, (∀ c ∈ left, isTargetByte c = true) →
      (∀ c ∈ right, isTargetByte c = true) → ∀ c ∈ left ++ right, isTargetByte c = true :=
    fun hleft hright c hc => (mem_append.mp hc).elim (hleft c) (hright c)
  have hses : ∀ c ∈ "/v1/sessions/".toList, isTargetByte c = true :=
    all_eq_true.mp (by decide)
  cases route with
  | register => exact all_eq_true.mp (by decide)
  | allocate sessionId => exact hjoin (hjoin hses hid) (all_eq_true.mp (by decide))
  | poll sessionId after =>
    refine hjoin (hjoin (hjoin hses hid) (all_eq_true.mp (by decide))) fun c hc => ?_
    exact isTargetByte_digit (Nat.isDigit_of_mem_toDigits (by decide) le_rfl hc)
  | cleanup sessionId => exact hjoin hses hid
  | callback sessionId callbackId =>
    exact hjoin (hjoin (all_eq_true.mp (by decide)) hid) (forall_mem_cons.mpr ⟨by decide, hid⟩)

theorem renderChars_length (route : NativeOastRoute) :
    route.renderChars.length ≤ maxNativeOastRequestTargetBytes := by
  have hses : "/v1/sessions/".toList.length = 13 := by decide
  cases route with
  | register => decide
  | allocate sessionId =>
    show length (_ ++ _ ++ _) ≤ _
    rw [length_append, length_append, length_id, hses]
    decide
  | poll sessionId after =>
    have hdigs : (Nat.toDigits 10 after.value).length ≤ 10 :=
      (Nat.length_toDigits_le_iff (by decide) (by decide)).mpr
        (Nat.lt_of_le_of_lt after.bounded (by decide))
    show length (_ ++ _ ++ _ ++ _) ≤ _
    rw [length_append, length_append, length_append, length_id, hses,
      show "/events?after=".toList.length = 14 by decide]
    have hid : OpaqueKind.session.textBytes = 22 := rfl
    unfold maxNativeOastRequestTargetBytes
    omega
  | cleanup sessionId =>
    show length (_ ++ _) ≤ _
    rw [length_append, length_id, hses]
    decide
  | callback sessionId callbackId =>
    show length (_ ++ _ ++ _ :: _) ≤ _
    rw [length_append, length_append, length_cons, length_id, length_id]
    decide

theorem renderChars_head (route : NativeOastRoute) : route.renderChars.head? = some '/' := by
  have hses : "/v1/sessions/".toList.head? = some '/' := by decide
  have hsta : ∀ {left right : List Char}, left.head? = some '/' → (left ++ right).head? = some '/' := by
    intro left right hleft
    rw [head?_append, hleft]
    rfl
  cases route with
  | register => decide
  | allocate sessionId => exact hsta (hsta hses)
  | poll sessionId after => exact hsta (hsta (hsta hses))
  | cleanup sessionId => exact hsta hses
  | callback sessionId callbackId => exact hsta (hsta (by decide))

/-- Every target of a route is accepted as that route. -/
theorem fromStr_complete (h : IsTargetOf source route) : fromStr source = .ok route := by
  have hbs := route.renderChars_bytes
  rcases h with rfl | ⟨hcb, hsize, query, rfl, hqry⟩
  · obtain ⟨path, query, hpar, hpath, hrender⟩ := exists_parts route
    have hchr : route.render.toList = route.renderChars := String.toList_ofList
    refine fromStr_of_parts hpar hpath (hchr.trans hrender) ?_ ?_ ?_
    · unfold render
      rw [byteSize_ascii fun c hc => utf8Size_of_isTargetByte (hbs c hc)]
      exact route.renderChars_length
    · rw [hchr]
      exact route.renderChars_head
    · rw [hchr]
      exact hbs
  · cases route with
    | callback sessionId callbackId =>
      have hpar : Parts (renderChars (.callback sessionId callbackId)) (some query)
          (.callback sessionId callbackId) := rfl
      have hpath : '?' ∉ renderChars (.callback sessionId callbackId) := by
        obtain ⟨path, other, hoth, hpath, -⟩ := exists_parts (.callback sessionId callbackId)
        have heq : path = renderChars (.callback sessionId callbackId) := hoth
        exact heq ▸ hpath
      refine fromStr_of_parts hpar hpath String.toList_ofList hsize ?_ ?_
      · rw [String.toList_ofList, head?_append, renderChars_head]
        rfl
      · rw [String.toList_ofList]
        intro c hc
        rcases mem_append.mp hc with hc | hc
        · exact hbs c hc
        · rcases mem_cons.mp hc with rfl | hc
          · decide
          · obtain ⟨⟨hlow, hhigh⟩, hhash, hback⟩ := hqry c hc
            simp [isTargetByte, hlow, hhigh, hhash, hback]
    | _ => cases hcb

end Targets

/-- **The grammar of request targets.** A source of any length is accepted as a
route if and only if it is the canonical rendering of the route, or, for a
callback, that rendering and a query of printable bytes other than `#` and a
backslash, within 4096 bytes in all. So every rendered route parses to itself,
and no two sources parse to one route of the management protocol. -/
theorem fromStr_eq_ok_iff :
    (∀ source route, fromStr source = .ok route ↔ IsTargetOf source route) ∧
    (∀ route : NativeOastRoute, fromStr route.render = .ok route) ∧
    ∀ source source' route, route.isManagement = true → fromStr source = .ok route →
      fromStr source' = .ok route → source = source' := by
  refine ⟨fun source route => ⟨fromStr_sound, fromStr_complete⟩,
    fun route => fromStr_complete (.inl rfl), fun source source' route hrt h h' => ?_⟩
  have hrender : ∀ {source : String}, fromStr source = .ok route → source = route.render := by
    intro source h
    rcases fromStr_sound h with hsource | ⟨hcb, -⟩
    · exact hsource
    · rw [hrt] at hcb
      cases hcb
  exact (hrender h).trans (hrender h').symm

end NativeOastRoute

end Termivar.Oast
