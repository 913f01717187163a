/-
# A mutation changes one value

The position of the selected pair is found in the decoded query and used in the
raw one. A query that is accepted has a decoded pair for each raw pair
(`parseQueryPairs_eq_some`), and the name stays as it was written while the new
value is encoded; so what is sent has the other raw pairs as they were, and
decodes to the old pairs with one value exchanged (`materialized_of_selected`).
-/
import Termivar.FormUrlencoded
import Termivar.Hex
import Termivar.JsonReader
import Termivar.SsrfOast.Query

namespace Termivar.SsrfOast

open Checked List

/-! ### Encoded values -/

theorem decodeBytes_encodeByte (byte : UInt8) (rest : List Char) :
    Form.decodeBytes (encodeByte byte ++ rest) = byte :: Form.decodeBytes rest := by
  have hplain : ∀ byte : UInt8, isUnreserved byte = true → Char.ofNat byte.toNat ≠ '+' ∧
      Char.ofNat byte.toNat ≠ '%' ∧ String.utf8EncodeChar (Char.ofNat byte.toNat) = [byte] :=
    Hex.forall_byte (by decide +kernel)
  have hescape : ∀ byte : UInt8, Form.hexPair (upperHexDigit (byte.toNat / 16))
      (upperHexDigit (byte.toNat % 16)) = some byte := Hex.forall_byte (by decide +kernel)
  unfold encodeByte
  split_ifs with hunr
  · obtain ⟨hplus, hperc, hbs⟩ := hplain byte hunr
    exact (Form.decodeBytes_plain hplus hperc rest).trans (by rw [hbs, singleton_append])
  · exact Form.decodeBytes_escape (hescape byte) rest

/-- **What is encoded decodes to itself.** -/
theorem decodeBytes_encodeQueryComponent : ∀ bytes : Bytes,
    Form.decodeBytes (encodeQueryComponent bytes) = bytes
  | [] => by simp [encodeQueryComponent, Form.decodeBytes]
  | byte :: bytes => by
    rw [encodeQueryComponent, flatMap_cons, decodeBytes_encodeByte]
    exact congrArg _ (decodeBytes_encodeQueryComponent bytes)

theorem not_mem_encodeQueryComponent (bytes : Bytes) : '&' ∉ encodeQueryComponent bytes := by
  have hbyte : ∀ byte : UInt8, '&' ∉ encodeByte byte := Hex.forall_byte (by decide +kernel)
  intro hmem
  obtain ⟨byte, -, hmem⟩ := mem_flatMap.mp hmem
  exact hbyte byte hmem

/-! ### Raw names -/

theorem not_mem_rawName (pair : List Char) : '=' ∉ rawName pair := by
  unfold rawName
  cases hcut : splitOnce '=' pair with
  | none => exact splitOnce_eq_none.mp hcut
  | some cut => exact (splitOnce_eq_some.mp hcut).2

theorem rawName_subset (pair : List Char) : rawName pair ⊆ pair := by
  unfold rawName
  cases hcut : splitOnce '=' pair with
  | none => exact List.Subset.refl _
  | some cut =>
    obtain ⟨hpair, -⟩ := splitOnce_eq_some.mp hcut
    intro c hc
    rw [hpair]
    exact mem_append_left _ hc

variable {lossy : Bytes → String}

theorem fst_pair (part : List Char) :
    (Form.pair lossy part).1 = lossy (Form.decodeBytes (rawName part)) := by
  unfold Form.pair rawName
  cases splitOnce '=' part <;> rfl

/-- The name as it was written, before another value. -/
theorem pair_rawName (part : List Char) (hlossy : ∀ text, lossy (utf8Bytes text) = text)
    (replacement : String) :
    Form.pair lossy (rawName part ++ '=' :: encodeQueryComponent (utf8Bytes replacement)) =
      ((Form.pair lossy part).1, replacement) := by
  rw [Form.pair_of_equals lossy (not_mem_rawName part), fst_pair, decodeBytes_encodeQueryComponent,
    hlossy]

/-! ### Accepted queries -/

variable {library : UrlLibrary} {query : String} {pairs : List ParsedQueryPair}

/-- The pairs of an accepted query are the decoded ones, one for each raw pair. -/
structure Accepted (library : UrlLibrary) (query : String) (pairs : List ParsedQueryPair) : Prop where
  nonempty : ∀ part ∈ query.toList.splitOn '&', part ≠ []
  length_eq : pairs.length = (query.toList.splitOn '&').length
  decoded : pairs.map (fun pair => (pair.name, pair.value)) = library.formParse query

/-- Pairs with names are collected as they are. -/
theorem collected_eq : ∀ {decoded : List (String × String)} {pairs : List ParsedQueryPair},
    decoded.mapM (fun (name, value) =>
      if name.isEmpty then none else some (⟨name, value⟩ : ParsedQueryPair)) = some pairs →
    pairs.map (fun pair => (pair.name, pair.value)) = decoded
  | [], pairs, h => by
    obtain rfl : [] = pairs := by simpa using h
    rfl
  | (name, value) :: rest, pairs, h => by
    rw [mapM_cons] at h
    obtain ⟨pair, hpair, h⟩ := Option.bind_eq_some_iff.mp h
    obtain ⟨others, hoths, h⟩ := Option.bind_eq_some_iff.mp h
    cases h
    dsimp only at hpair
    split_ifs at hpair
    cases hpair
    rw [map_cons, collected_eq hoths]

theorem parseQueryPairs_eq_some (h : parseQueryPairs library query = some pairs) :
    Accepted library query pairs := by
  unfold parseQueryPairs at h
  split_ifs at h with hinv
  dsimp only at h
  split_ifs at h with hemp hlength
  have hdec := collected_eq h
  refine ⟨fun part hpart hnil => hemp (any_eq_true.mpr ⟨part, hpart, by simp [hnil]⟩), ?_, hdec⟩
  rw [← not_ne_iff.mp hlength, ← hdec, length_map]

/-! ### Materialized targets -/

/-- The target is the resource with another value in one pair of its query. -/
structure Materialized (library : UrlLibrary) (resource : Url) (original : String) (index : Nat)
    (replacement : String) (target : Url) : Prop where
  scheme_eq : target.scheme = resource.scheme
  host_eq : normalizedHost library target = normalizedHost library resource
  port_eq : target.port = resource.port
  path_eq : target.path = resource.path
  query : ∃ query, target.query = some query ∧
    (query.toList.splitOn '&').length = (original.toList.splitOn '&').length ∧
    (∀ other, other ≠ index →
      (query.toList.splitOn '&')[other]? = (original.toList.splitOn '&')[other]?) ∧
    library.formParse query =
      (library.formParse original).modify index fun pair => (pair.1, replacement)

theorem sameOrigin_eq_true {left right : Url} : sameOrigin library left right = true ↔
    left.scheme = right.scheme ∧ normalizedHost library left = normalizedHost library right ∧
      left.port = right.port := by
  simp [sameOrigin]

variable {selected : SsrfOastQueryCandidate}

/-- **A materialized query is the original one with another value.** -/
theorem mutatedQuery_spec {original replacement : String}
    {index : Nat} {mutated : List Char} (hqry : selected.executionResource.query = some original)
    (hidx : selected.selectedPairIndex = some index)
    (hlossy : ∀ text, lossy (utf8Bytes text) = text)
    (hform : ∀ query, library.formParse query = Form.parse lossy query.toList)
    (hacc : Accepted library original pairs)
    (h : mutatedQuery selected (encodeQueryComponent (utf8Bytes replacement)) = .ok mutated) :
    (mutated.splitOn '&').length = (original.toList.splitOn '&').length ∧ (∀ other, other ≠ index →
        (mutated.splitOn '&')[other]? = (original.toList.splitOn '&')[other]?) ∧
      library.formParse (String.ofList mutated) =
        (library.formParse original).modify index fun pair => (pair.1, replacement) := by
  simp only [mutatedQuery, hqry, hidx] at h
  cases hpart : (original.toList.splitOn '&')[index]? with
  | none =>
    rw [hpart] at h
    cases h
  | some part =>
    rw [hpart] at h
    cases h
    have hpar := mem_of_getElem? hpart
    have hnew : '&' ∉ rawName part ++ '=' :: encodeQueryComponent (utf8Bytes replacement) := by
      rw [mem_append, mem_cons, not_or, not_or]
      exact ⟨fun hname => Form.not_mem_of_mem_splitOn hpar (rawName_subset part hname),
        by decide, not_mem_encodeQueryComponent _⟩
    rw [Form.splitOn_set _ _ hnew]
    refine ⟨length_set, fun other hoth => getElem?_set_ne hoth.symm, ?_⟩
    rw [hform, String.toList_ofList, Form.parse_set lossy hacc.nonempty index hnew (by simp),
      ← hform, pair_rawName part hlossy]
    have hpair : (library.formParse original)[index]? = some (Form.pair lossy part) := by
      rw [hform, Form.parse_of_nonempty lossy hacc.nonempty, getElem?_map, hpart]
      rfl
    rw [modify_eq_set_getElem?, hpair]
    rfl

theorem materializeQuery_eq_ok {replacement : String}
    {target : Url} (h : materializeQuery library selected replacement = .ok target) :
    ∃ mutated, mutatedQuery selected (encodeQueryComponent (utf8Bytes replacement)) = .ok mutated ∧
      target.query = some (String.ofList mutated) := by
  unfold materializeQuery at h
  obtain ⟨mutated, hmut, h⟩ := bind_eq_ok.mp h
  dsimp only at h
  split_ifs at h with hrefused
  · cases h
  cases h
  exact ⟨mutated, hmut, not_ne_iff.mp fun hqry => hrefused (.inl hqry)⟩

/-- A target from the resource's origin and path. -/
theorem materialized_of_eq_ok {original replacement : String}
    {index : Nat} {target : Url} (hqry : selected.executionResource.query = some original)
    (hidx : selected.selectedPairIndex = some index)
    (hlossy : ∀ text, lossy (utf8Bytes text) = text)
    (hform : ∀ query, library.formParse query = Form.parse lossy query.toList)
    (hacc : Accepted library original pairs)
    (h : materializeQuery library selected replacement = .ok target)
    (horigin : sameOrigin library selected.executionResource target = true)
    (hpath : selected.executionResource.path = target.path) :
    Materialized library selected.executionResource original index replacement target := by
  obtain ⟨mutated, hmut, htgt⟩ := materializeQuery_eq_ok h
  obtain ⟨hlength, hoths, hprs⟩ :=
    mutatedQuery_spec hqry hidx hlossy hform hacc hmut
  obtain ⟨hscheme, hhost, hport⟩ := sameOrigin_eq_true.mp horigin
  refine ⟨hscheme.symm, hhost.symm, hport.symm, hpath.symm, _, htgt, ?_⟩
  rw [String.toList_ofList]
  exact ⟨hlength, hoths, hprs⟩

theorem controlExecutionUrl_eq_ok {seed : Bytes}
    {control : Url} (h : selected.controlExecutionUrl library seed = .ok control) :
    ∃ payload, inertControlUrl library seed selected.selectionId = .ok payload ∧
      materializeQuery library selected payload.text = .ok control ∧
      sameOrigin library selected.executionResource control = true ∧
      selected.executionResource.path = control.path := by
  unfold SsrfOastQueryCandidate.controlExecutionUrl at h
  split_ifs at h with hseed
  · cases h
  obtain ⟨payload, hpayl, h⟩ := bind_eq_ok.mp h
  obtain ⟨control', hcontrol, h⟩ := bind_eq_ok.mp h
  split_ifs at h with hrefused
  · cases h
  cases h
  rw [not_or, Bool.not_eq_true', Bool.not_eq_false, not_ne_iff] at hrefused
  exact ⟨payload, hpayl, hcontrol, hrefused⟩

/-! ### Selection -/

/-- What is known of a selected candidate. -/
structure SelectedAt (library : UrlLibrary) (resource : Url) (candidate : SsrfOastQueryCandidate)
    (original : String) (index : Nat) (pairs : List ParsedQueryPair) : Prop where
  resource_eq : candidate.executionResource = resource
  query_eq : resource.query = some original
  index_eq : candidate.selectedPairIndex = some index
  parsed : parseQueryPairs library original = some pairs
  named : pairs[index]?.map ParsedQueryPair.name = some candidate.parameterName
  once : (pairs.filter fun pair => pair.name = candidate.parameterName).length = 1

theorem selectObservedQueryCandidate_eq_selected {origin resource : Url} {subject : String}
    {complete stable clear : Bool} {candidate : SsrfOastQueryCandidate}
    (h : selectObservedQueryCandidate library origin resource subject complete stable clear =
      .selected candidate) :
    ∃ original index pairs, SelectedAt library resource candidate original index pairs := by
  unfold selectObservedQueryCandidate at h
  split_ifs at h
  cases hprd : resource.query.bind (parseQueryPairs library) with
  | none => simp [hprd] at h
  | some pairs =>
    obtain ⟨original, hqry, hprs⟩ := Option.bind_eq_some_iff.mp hprd
    simp only [hprd] at h
    split_ifs at h
    split at h
    · rename_i first rest heligible
      obtain rfl := SsrfOastCandidateSelection.selected.inj h
      have hmem := heligible ▸ mem_cons_self (a := first) (l := rest)
      obtain ⟨⟨pair, index⟩, hpair, hbt⟩ := mem_filterMap.mp hmem
      dsimp only at hbt
      split_ifs at hbt with hpairE
      cases hbt
      simp only [isEligible, Bool.and_eq_true, decide_eq_true_eq] at hpairE
      refine ⟨original, index, pairs, rfl, hqry, rfl, hprs, ?_, hpairE.1.1⟩
      rw [mk_mem_zipIdx_iff_getElem?.mp hpair]
      rfl
    · cases h

theorem fromCallbackStringsInner_eq_ok {seed : Bytes}
    {candidateTarget replayTarget provider : String} {loopback : Bool} {plan : SsrfOastMutationPlan}
    (h : fromCallbackStringsInner library selected seed candidateTarget replayTarget provider
      loopback = .ok plan) :
    ∃ candidate replay control,
      validateCallbackTarget library candidateTarget provider loopback = .ok candidate ∧
      validateCallbackTarget library replayTarget provider loopback = .ok replay ∧
      selected.controlExecutionUrl library seed = .ok control ∧
      materializeQuery library selected candidate.text = .ok plan.candidate ∧
      materializeQuery library selected replay.text = .ok plan.replay ∧
      sameOrigin library selected.executionResource plan.candidate = true ∧
      sameOrigin library selected.executionResource plan.replay = true ∧
      selected.executionResource.path = plan.candidate.path ∧
      selected.executionResource.path = plan.replay.path := by
  unfold fromCallbackStringsInner at h
  split_ifs at h with hsame
  · cases h
  obtain ⟨candidate, hcandidate, h⟩ := bind_eq_ok.mp h
  obtain ⟨replay, hreplay, h⟩ := bind_eq_ok.mp h
  obtain ⟨control, hcontrol, h⟩ := bind_eq_ok.mp h
  obtain ⟨candidateUrl, hcandidateUrl, h⟩ := bind_eq_ok.mp h
  obtain ⟨replayUrl, hreplayUrl, h⟩ := bind_eq_ok.mp h
  split_ifs at h with hrefused
  · cases h
  cases h
  simp only [not_or, Bool.not_eq_true', Bool.not_eq_false, not_ne_iff] at hrefused
  obtain ⟨-, -, hcand, hrepl, -, hcan, hrep⟩ := hrefused
  exact ⟨candidate, replay, control, hcandidate, hreplay, hcontrol, hcandidateUrl, hreplayUrl,
    hcand, hrepl, hcan, hrep⟩

/-- **Every target of an accepted plan is the resource with one value exchanged.**
The selected name occurs once among the decoded pairs, at the position of the
pair that is rewritten; the control, the candidate and the replay target have
the origin and the path of the resource and its raw pairs but that one, and
decode to its pairs with the text of the control or callback URL as the one
value. -/
theorem materialized_of_selected (library : UrlLibrary) (lossy : Bytes → String)
    (hlossy : ∀ text, lossy (utf8Bytes text) = text)
    (hform : ∀ query, library.formParse query = Form.parse lossy query.toList)
    {origin resource : Url} {subject : String} {complete stable clear : Bool}
    {selected : SsrfOastQueryCandidate} {seed : Bytes}
    {candidateTarget replayTarget provider : String} {loopback : Bool} {plan : SsrfOastMutationPlan}
    (hselected : selectObservedQueryCandidate library origin resource subject complete stable
      clear = .selected selected)
    (hplan : fromCallbackStringsInner library selected seed candidateTarget replayTarget provider
      loopback = .ok plan) :
    ∃ original index payload control candidateCallback replayCallback,
      resource.query = some original ∧
      ((library.formParse original).filter fun pair => pair.1 = selected.parameterName).length = 1 ∧
      (library.formParse original)[index]?.map Prod.fst = some selected.parameterName ∧
      inertControlUrl library seed selected.selectionId = .ok payload ∧
      selected.controlExecutionUrl library seed = .ok control ∧
      validateCallbackTarget library candidateTarget provider loopback = .ok candidateCallback ∧
      validateCallbackTarget library replayTarget provider loopback = .ok replayCallback ∧
      Materialized library resource original index payload.text control ∧
      Materialized library resource original index candidateCallback.text plan.candidate ∧
      Materialized library resource original index replayCallback.text plan.replay := by
  obtain ⟨original, index, pairs, rfl, hqry, hidx, hprd, hnamed, honce⟩ :=
    selectObservedQueryCandidate_eq_selected hselected
  obtain ⟨candidate, replay, control, hcandidate, hreplay, hcontrol, hcandidateUrl, hreplayUrl,
    hcand, hrepl, hcan, hrep⟩ :=
    fromCallbackStringsInner_eq_ok hplan
  obtain ⟨payload, hpayl, hcontr, hcont, hcon⟩ :=
    controlExecutionUrl_eq_ok hcontrol
  have hacc := parseQueryPairs_eq_some hprd
  refine ⟨original, index, payload, control, candidate, replay, hqry, ?_, ?_, hpayl, hcontrol,
    hcandidate, hreplay,
    materialized_of_eq_ok hqry hidx hlossy hform hacc hcontr hcont hcon,
    materialized_of_eq_ok hqry hidx hlossy hform hacc hcandidateUrl hcand
      hcan,
    materialized_of_eq_ok hqry hidx hlossy hform hacc hreplayUrl hrepl hrep⟩
  · rw [← hacc.decoded, List.filter_map, List.length_map]
    exact honce
  · rw [← hacc.decoded, List.getElem?_map, Option.map_map]
    exact hnamed

/-! ### A sample -/

/-- What parsing makes of an absolute `https` URL in its canonical form. -/
def sampleUrl (host path : List Char) (query : Option String) : Url where
  text := "https://" ++ String.ofList (host ++ path) ++ (query.map ("?" ++ ·)).getD ""
  scheme := "https"
  host := some (.domain (String.ofList host))
  port := some 443
  path := String.ofList path
  query
  fragment := none
  username := ""
  password := none

def sampleParse (text : String) : Option Url :=
  (stripPrefix "https://".toList text.toList).map fun rest =>
    let host := rest.takeWhile (· ≠ '/')
    let tail := rest.drop host.length
    match splitOnce '?' tail with
    | some (path, query) => sampleUrl host path (some (String.ofList query))
    | none => sampleUrl host tail none

def sampleLossy (bytes : Bytes) : String :=
  (String.fromUTF8? ⟨bytes.toArray⟩).getD "\uFFFD"

theorem sampleLossy_utf8Bytes (text : String) : sampleLossy (utf8Bytes text) = text := by
  have hvalid : String.fromUTF8? ⟨(utf8Bytes text).toArray⟩ = some text := by
    unfold String.fromUTF8? utf8Bytes
    have hbs : (⟨text.toByteArray.data.toList.toArray⟩ : ByteArray) = text.toByteArray := rfl
    rw [hbs, dif_pos text.isValidUTF8]
    rfl
  rw [sampleLossy, hvalid, Option.getD_some]

def sampleLibrary : UrlLibrary where
  parse := sampleParse
  setPath url path := { url with path }
  setQuery url query := sampleUrl (url.text.toList.drop 8 |>.takeWhile (· ≠ '/')) url.path.toList query
  setFragment url fragment := { url with fragment }
  formParse query := Form.parse sampleLossy query.toList
  ipv4Text := toString
  ipv6Text := toString
  sha256 _ := replicate 32 0x5a

def sampleResource : Url :=
  sampleUrl "target.example.test".toList "/fetch".toList
    (some "keep=a%2Fb&url=https%3A%2F%2Fold.example%2Fx&tail=z+q")

def sampleSelected : SsrfOastQueryCandidate :=
  buildCandidate sampleLibrary .observedUrlQuery sampleResource "url" (some 1) "subject" 1

theorem sampleSelected_spec : selectObservedQueryCandidate sampleLibrary sampleResource sampleResource
    "subject" true true true = .selected sampleSelected := by
  decide +kernel

def samplePlan : Except SsrfOastContractError SsrfOastMutationPlan :=
  fromCallbackStringsInner sampleLibrary sampleSelected (replicate 32 7)
    "https://oast.example.test/c/AQEBAQEBAQEBAQEBAQEBAQ/AwMDAwMDAwMDAwMDAwMDAw"
    "https://oast.example.test/c/AQEBAQEBAQEBAQEBAQEBAQ/BAQEBAQEBAQEBAQEBAQEBA"
    "https://oast.example.test/" false

/-- The characters of a text, read off its bytes where all are ASCII. -/
def charsOf (text : String) : List Char :=
  if (utf8Bytes text).all (· < 128) then (utf8Bytes text).map fun byte => Char.ofNat byte.toNat
  else text.toList

theorem toList_eq_charsOf : String.toList = charsOf := by
  funext text
  unfold charsOf
  split_ifs with hascii
  · obtain ⟨cs, rfl⟩ : ∃ cs, text = String.ofList cs := ⟨_, String.ofList_toList.symm⟩
    rw [Hex.utf8Bytes_ofList, all_flatMap, all_eq_true] at hascii
    rw [Hex.utf8Bytes_ofList, map_flatMap, String.toList_ofList]
    refine (flatMap_singleton' cs).symm.trans (flatMap_congr fun c hc => ?_)
    rcases Json.encode_cases c with ⟨hsm, henc⟩ | hlarge
    · rw [henc, map_singleton, UInt8.toNat_ofNat_of_lt' (lt_trans hsm (by decide)), Char.ofNat_toNat]
    · obtain ⟨byte, hmem⟩ := exists_mem_of_ne_nil (String.utf8EncodeChar c) (by simp)
      have hlt := all_eq_true.mp (hascii c hc) byte hmem
      exact absurd (hlarge byte hmem) (by simpa using hlt)
  · rfl

theorem isSome_samplePlan : samplePlan.toOption.isSome = true := by
  delta samplePlan fromCallbackStringsInner validateCallbackTarget
  delta SsrfOastQueryCandidate.controlExecutionUrl inertControlUrl materializeQuery mutatedQuery
  delta sameOrigin normalizedHost sampleLibrary sampleParse isCallbackPath Oast.NativeOastRoute.fromStr
  rw [toList_eq_charsOf]
  decide +kernel

theorem materialized_of_selected_sample : ∃ original index callback plan,
    samplePlan = .ok plan ∧ sampleResource.query = some original ∧
      Materialized sampleLibrary sampleResource original index callback plan.candidate := by
  obtain ⟨plan, hplan⟩ : ∃ plan, samplePlan = .ok plan := by
    have hsome := isSome_samplePlan
    cases hplan : samplePlan with
    | ok plan => exact ⟨plan, rfl⟩
    | error error =>
      rw [hplan] at hsome
      cases hsome
  obtain ⟨original, index, -, -, callback, -, hqry, -, -, -, -, -, -, -, hcandidate, -⟩ :=
    materialized_of_selected sampleLibrary sampleLossy sampleLossy_utf8Bytes (fun _ => rfl)
      sampleSelected_spec hplan
  exact ⟨original, index, callback.text, plan, hplan, hqry, hcandidate⟩

end Termivar.SsrfOast
