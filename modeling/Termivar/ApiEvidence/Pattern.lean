/-
# Path patterns

`termivar-scanner/src/api_evidence/profiled/policy.rs`: a JSON pointer in which
a segment `*` stands for every segment. A pattern keeps the pointer it was read
from and the segments it decodes to. One pattern covers another if it matches a
prefix of it, its own `*` included: a partial order, which does not follow the
order in which patterns are sorted.
-/
import Termivar.ApiEvidence.Signature
import Termivar.Text

namespace Termivar.ApiEvidence

open List

def hardMaxApiComparisonProfilePaths : Nat := 256
def hardMaxApiComparisonPathBytes : Nat := 512
def hardMaxApiComparisonPathDepth : Nat := 128

/-- The errors of the profiled comparator. -/
inductive ProfiledApiVisibilityError where
  | evidence (failure : ApiVisibilityEvidenceError)
  | invalidPathPattern (reason : String)
  | pathTooLong (maximum : Nat)
  | pathTooDeep (maximum : Nat)
  | tooManyProfilePaths (maximum : Nat)
  | tooManyDiffPaths (maximum : Nat)
  | conflictingPathPolicy
  | nonCanonicalDiffPathOrder
  | overlappingDiffCategories
  | comparatorVersionMismatch
  | canonicalizationVersionMismatch
  | projectionPolicyMismatch
  | vocabulary (failure : ApiVocabularyError)
  deriving DecidableEq

/-! ### Pointers -/

def decodePointerToken : List Char → Except ProfiledApiVisibilityError (List Char)
  | [] => .ok []
  | '~' :: '0' :: rest => do return '~' :: (← decodePointerToken rest)
  | '~' :: '1' :: rest => do return '/' :: (← decodePointerToken rest)
  | '~' :: _ => .error (.invalidPathPattern "'~' escapes must be ~0 or ~1")
  | c :: rest => do return c :: (← decodePointerToken rest)

/-- `str::replace` of one character. -/
def replaceChar (c : Char) (replacement : List Char) (cs : List Char) : List Char :=
  cs.flatMap fun x => if x = c then replacement else [x]

def encodeToken (token : List Char) : List Char :=
  replaceChar '/' ['~', '1'] (replaceChar '~' ['~', '0'] token)

def encodePointer (tokens : List String) : String :=
  String.ofList (tokens.flatMap fun token => '/' :: encodeToken token.toList)

@[simp] theorem encodeToken_nil : encodeToken [] = [] := rfl

theorem encodeToken_cons (c : Char) (cs : List Char) : encodeToken (c :: cs) =
    (if c = '~' then ['~', '0'] else if c = '/' then ['~', '1'] else [c]) ++ encodeToken cs := by
  by_cases htilde : c = '~'
  · subst htilde
    simp [encodeToken, replaceChar]
  · simp only [encodeToken, replaceChar, flatMap_cons, htilde, if_false, cons_append, nil_append]

theorem not_mem_encodeToken (token : List Char) : '/' ∉ encodeToken token := by
  induction token with
  | nil => simp
  | cons c cs ih =>
    rw [encodeToken_cons, mem_append, not_or]
    refine ⟨?_, ih⟩
    split_ifs with htilde hslash
    · decide
    · decide
    · simpa using fun h : '/' = c => hslash h.symm

theorem decode_cons {c : Char} (hc : c ≠ '~') (cs : List Char) :
    decodePointerToken (c :: cs) = (do return c :: (← decodePointerToken cs)) := by
  rw [decodePointerToken] <;> simp_all

theorem decode_encodeToken (token : List Char) :
    decodePointerToken (encodeToken token) = .ok token := by
  induction token with
  | nil => rfl
  | cons c cs ih =>
    rw [encodeToken_cons]
    split_ifs with htilde hslash
    · simp [decodePointerToken, ih, htilde]
    · simp [decodePointerToken, ih, hslash]
    · rw [singleton_append, decode_cons htilde, ih]
      rfl

/-- A segment is decoded only from what it is encoded as. -/
theorem encode_decodeToken {cs token : List Char} (h : decodePointerToken cs = .ok token)
    (hslash : '/' ∉ cs) : encodeToken token = cs := by
  induction cs using decodePointerToken.induct generalizing token with
  | case1 =>
    cases h
    rfl
  | case2 rest ih =>
    obtain ⟨tail, htail, h⟩ := bind_ok h
    cases h
    rw [encodeToken_cons, ih htail (by simp_all)]
    rfl
  | case3 rest ih =>
    obtain ⟨tail, htail, h⟩ := bind_ok h
    cases h
    rw [encodeToken_cons, ih htail (by simp_all)]
    rfl
  | case4 rest h0 h1 =>
    rw [decodePointerToken] at h
    · cases h
    · exact h0
    · exact h1
  | case5 c rest h0 h1 hc ih =>
    have htilde : c ≠ '~' := hc
    rw [decode_cons htilde] at h
    obtain ⟨tail, htail, h⟩ := bind_ok h
    cases h
    have hne : c ≠ '/' := fun h => hslash (by simp [h])
    rw [encodeToken_cons, if_neg htilde, if_neg hne, ih htail fun h => hslash (by simp [h])]
    rfl

/-! ### Segments -/

/-- The text of segments: a slash before each. -/
def joinSegments (segments : List (List Char)) : List Char := segments.flatMap ('/' :: ·)

theorem splitOn_joinSegments : ∀ {first : List Char} {segments : List (List Char)},
    '/' ∉ first → (∀ segment ∈ segments, '/' ∉ segment) →
    (first ++ joinSegments segments).splitOn '/' = first :: segments
  | first, [], hfirst, _ => by
    rw [joinSegments, flatMap_nil, append_nil, splitOn_eq_singleton hfirst]
  | first, segment :: segments, hfirst, hsegm => by
    obtain ⟨hseg, hrest⟩ := forall_mem_cons.mp hsegm
    have hjoin : first ++ joinSegments (segment :: segments) =
        first ++ '/' :: (segment ++ joinSegments segments) := by
      simp [joinSegments]
    rw [hjoin, splitOn_append_cons_self_of_not_mem hfirst, splitOn_joinSegments hseg hrest]

theorem exists_joinSegments : ∀ cs : List Char, ∃ first segments,
    cs = first ++ joinSegments segments ∧ '/' ∉ first ∧ ∀ segment ∈ segments, '/' ∉ segment
  | [] => ⟨[], [], rfl, not_mem_nil, fun _ h => absurd h not_mem_nil⟩
  | c :: cs => by
    obtain ⟨first, segments, rfl, hfirst, hsegm⟩ := exists_joinSegments cs
    by_cases hc : c = '/'
    · subst hc
      exact ⟨[], first :: segments, by simp [joinSegments], not_mem_nil,
        forall_mem_cons.mpr ⟨hfirst, hsegm⟩⟩
    · refine ⟨c :: first, segments, rfl, ?_, hsegm⟩
      rw [mem_cons, not_or]
      exact ⟨fun h => hc h.symm, hfirst⟩

theorem encodePointer_eq (tokens : List String) :
    (encodePointer tokens).toList =
      joinSegments (tokens.map fun token => encodeToken token.toList) := by
  simp [encodePointer, joinSegments, flatMap_map]

/-! ### Patterns -/

/-- A pointer and its segments. -/
structure JsonPathPattern where
  canonical : String
  tokens : List String
  encodes : canonical = encodePointer tokens
  short : canonical.utf8ByteSize ≤ hardMaxApiComparisonPathBytes
  shallow : tokens.length ≤ hardMaxApiComparisonPathDepth
  deriving DecidableEq

def tokensMatch (pattern path : List String) : Bool :=
  (pattern.zip path).all fun (expected, actual) => expected = "*" || expected = actual

namespace JsonPathPattern

def decodeTokens (value : String) : Except ProfiledApiVisibilityError (List String) :=
  if value = "" then pure []
  else ((value.toList.splitOn '/').drop 1).mapM fun token =>
    return String.ofList (← decodePointerToken token)

/-- `JsonPathPattern::new`. -/
def new (value : String) : Except ProfiledApiVisibilityError JsonPathPattern := do
  if hardMaxApiComparisonPathBytes < value.utf8ByteSize then
    throw (.pathTooLong hardMaxApiComparisonPathBytes)
  if value ≠ "" ∧ value.toList.head? ≠ some '/' then
    throw (.invalidPathPattern "non-root patterns must start with '/'")
  let tokens ← decodeTokens value
  if shallow : tokens.length ≤ hardMaxApiComparisonPathDepth then
    if short : (encodePointer tokens).utf8ByteSize ≤ hardMaxApiComparisonPathBytes then
      return { canonical := encodePointer tokens, tokens, encodes := rfl, short, shallow }
    else throw (.pathTooLong hardMaxApiComparisonPathBytes)
  else throw (.pathTooDeep hardMaxApiComparisonPathDepth)

variable (pattern : JsonPathPattern)

def asStr : String := pattern.canonical

def matchesPrefixOf (path : List String) : Bool :=
  pattern.tokens.length ≤ path.length &&
    tokensMatch pattern.tokens (path.take pattern.tokens.length)

def pathIsPrefix (path : List String) : Bool :=
  path.length ≤ pattern.tokens.length && tokensMatch (pattern.tokens.take path.length) path

def matchesExactly (path : List String) : Bool :=
  pattern.tokens.length = path.length && tokensMatch pattern.tokens path

/-- The derived order: by the pointer, then by its segments. -/
instance : LinearOrder JsonPathPattern :=
  LinearOrder.lift' (fun pattern => toLex (pattern.canonical, pattern.tokens)) (by
    rintro ⟨canonical, tokens, _, _, _⟩ ⟨canonical', tokens', _, _, _⟩ h
    obtain ⟨rfl, rfl⟩ := Prod.mk.inj (toLex.injective h)
    rfl)

/-! ### Parsing -/

theorem decodeTokens_encodePointer (tokens : List String) :
    decodeTokens (encodePointer tokens) = .ok tokens := by
  unfold decodeTokens
  by_cases hemp : encodePointer tokens = ""
  · rw [if_pos hemp]
    cases tokens with
    | nil => rfl
    | cons token tokens =>
      have hlist := congrArg String.toList hemp
      rw [encodePointer_eq] at hlist
      simp [joinSegments] at hlist
  · have hno : ∀ segment ∈ tokens.map fun token => encodeToken token.toList, '/' ∉ segment := by
      intro segment hseg
      obtain ⟨token, -, rfl⟩ := mem_map.mp hseg
      exact not_mem_encodeToken token.toList
    have hspl := @splitOn_joinSegments [] _ not_mem_nil hno
    rw [if_neg hemp, encodePointer_eq, ← nil_append (joinSegments _), hspl,
      drop_one, tail_cons, Checked.mapM_eq_ok_iff, forall₂_map_left_iff,
      forall₂_same]
    intro token _
    rw [decode_encodeToken]
    simp [pure, Except.pure, bind, Except.bind]

/-- Segments are decoded only from the pointer they are encoded as. -/
theorem encodePointer_decodeTokens {value : String} {tokens : List String}
    (hsta : ¬ (value ≠ "" ∧ value.toList.head? ≠ some '/'))
    (h : decodeTokens value = .ok tokens) : encodePointer tokens = value := by
  unfold decodeTokens at h
  split_ifs at h with hemp
  · cases h
    rw [hemp]
    rfl
  · obtain ⟨first, segments, hvalue, hfirst, hsegm⟩ := exists_joinSegments value.toList
    have hhead : value.toList.head? = some '/' := by
      by_contra hne
      exact hsta ⟨hemp, hne⟩
    -- a pointer starts with a slash, so nothing stands before it
    have hnil : first = [] := by
      cases first with
      | nil => rfl
      | cons c first =>
        rw [hvalue] at hhead
        obtain rfl : c = '/' := by simpa using hhead
        exact absurd mem_cons_self hfirst
    rw [hvalue, splitOn_joinSegments hfirst hsegm, drop_one, tail_cons, Checked.mapM_eq_ok_iff] at h
    have henc : tokens.map (fun token => encodeToken token.toList) = segments := by
      clear hvalue
      induction h with
      | nil => rfl
      | @cons segment token segments tokens hread _ ih =>
        obtain ⟨hseg, hrest⟩ := forall_mem_cons.mp hsegm
        obtain ⟨decoded, hdec, hok⟩ := bind_ok hread
        cases hok
        rw [map_cons, ih hrest, String.toList_ofList, encode_decodeToken hdec hseg]
    rw [← String.toList_inj, encodePointer_eq, henc, hvalue, hnil, nil_append]

theorem ext {pattern other : JsonPathPattern} (h : pattern.tokens = other.tokens) :
    pattern = other := by
  obtain ⟨canonical, tokens, rfl, _, _⟩ := pattern
  obtain ⟨canonical', tokens', rfl, _, _⟩ := other
  obtain rfl : tokens = tokens' := h
  rfl

/-- A pointer starts with a slash, unless it is empty. -/
theorem encodePointer_start (tokens : List String) :
    ¬ (encodePointer tokens ≠ "" ∧ (encodePointer tokens).toList.head? ≠ some '/') := by
  rintro ⟨hne, hhead⟩
  cases tokens with
  | nil => exact hne rfl
  | cons token tokens => exact hhead (by simp [encodePointer_eq, joinSegments])

/-- **A text is read as the pattern whose pointer it is.** -/
theorem new_eq_ok_iff {value : String} {pattern : JsonPathPattern} :
    new value = .ok pattern ↔ pattern.asStr = value := by
  constructor
  · intro h
    unfold new at h
    by_cases hlong : hardMaxApiComparisonPathBytes < value.utf8ByteSize
    · rw [if_pos hlong] at h
      cases h
    rw [if_neg hlong] at h
    by_cases hsta : value ≠ "" ∧ value.toList.head? ≠ some '/'
    · rw [if_pos hsta] at h
      cases h
    rw [if_neg hsta] at h
    obtain ⟨tokens, htokens, h⟩ := bind_ok h
    split_ifs at h
    cases h
    exact encodePointer_decodeTokens hsta htokens
  · rintro rfl
    obtain ⟨canonical, tokens, rfl, hsh, hshal⟩ := pattern
    unfold new asStr
    rw [if_neg (Nat.not_lt.mpr hsh), if_neg (encodePointer_start tokens), decodeTokens_encodePointer]
    simp only [bind, Except.bind, dif_pos hshal, dif_pos hsh]
    rfl

/-! ### Coverage -/

/-- The subtrees of one pattern hold those of another. -/
def covers (pattern other : JsonPathPattern) : Bool := pattern.matchesPrefixOf other.tokens

end JsonPathPattern

/-- A list of segments matches the start of a path. -/
def StartMatch : List String → List String → Prop
  | [], _ => True
  | _ :: _, [] => False
  | expected :: pattern, actual :: path =>
    (expected = "*" ∨ expected = actual) ∧ StartMatch pattern path

theorem tokensMatch_cons (expected actual : String) (pattern path : List String) :
    tokensMatch (expected :: pattern) (actual :: path) = true ↔
      (expected = "*" ∨ expected = actual) ∧ tokensMatch pattern path = true := by
  simp [tokensMatch]

theorem startMatch_iff : ∀ pattern path : List String, StartMatch pattern path ↔
    pattern.length ≤ path.length ∧ tokensMatch pattern (path.take pattern.length) = true
  | [], path => by simp [StartMatch, tokensMatch]
  | _ :: _, [] => by simp [StartMatch]
  | expected :: pattern, actual :: path => by
    rw [StartMatch, startMatch_iff pattern path, length_cons, length_cons,
      take_succ_cons, tokensMatch_cons, Nat.add_le_add_iff_right]
    tauto

/-- As far as both reach, a pattern and a path match exactly if one matches the
start of the other. -/
theorem tokensMatch_iff : ∀ pattern path : List String, tokensMatch pattern path = true ↔
    (pattern.length ≤ path.length ∧ tokensMatch pattern (path.take pattern.length) = true) ∨
      path.length ≤ pattern.length ∧ tokensMatch (pattern.take path.length) path = true
  | [], path => by simp [tokensMatch]
  | _ :: _, [] => by simp [tokensMatch]
  | expected :: pattern, actual :: path => by
    simp only [length_cons, take_succ_cons, tokensMatch_cons, tokensMatch_iff pattern path,
      Nat.add_le_add_iff_right]
    tauto

theorem startMatch_trans : ∀ {first second path : List String}, StartMatch first second →
    StartMatch second path → StartMatch first path
  | [], _, _, _, _ => trivial
  | _ :: _, [], _, h, _ => h.elim
  | _ :: _, _ :: _, [], _, h => h.elim
  | expected :: first, middle :: second, actual :: path, ⟨hfirst, hrest⟩, ⟨hsnd, hrest'⟩ => by
    refine ⟨?_, startMatch_trans hrest hrest'⟩
    rcases hfirst with hstar | rfl
    · exact Or.inl hstar
    · exact hsnd

theorem startMatch_antisymm : ∀ {first second : List String}, StartMatch first second →
    StartMatch second first → first = second
  | [], [], _, _ => rfl
  | [], _ :: _, _, h => h.elim
  | _ :: _, [], h, _ => h.elim
  | expected :: first, middle :: second, ⟨hfirst, hrest⟩, ⟨hsnd, hrest'⟩ => by
    rw [startMatch_antisymm hrest hrest']
    rcases hfirst with rfl | rfl
    · rcases hsnd with rfl | rfl <;> rfl
    · rfl

theorem tokensMatch_of_startMatch : ∀ {first second path : List String}, StartMatch first second →
    tokensMatch second path = true → tokensMatch first path = true
  | [], _, _, _, _ => by simp [tokensMatch]
  | _ :: _, [], _, h, _ => h.elim
  | _ :: _, _ :: _, [], _, _ => by simp [tokensMatch]
  | expected :: first, middle :: second, actual :: path, ⟨hfirst, hrest⟩, h => by
    rw [tokensMatch_cons] at h ⊢
    refine ⟨?_, tokensMatch_of_startMatch hrest h.2⟩
    rcases hfirst with hstar | rfl
    · exact Or.inl hstar
    · exact h.1

namespace JsonPathPattern

variable {first second third : JsonPathPattern} {path : List String}

theorem matchesPrefixOf_iff : first.matchesPrefixOf path = true ↔ StartMatch first.tokens path := by
  rw [startMatch_iff, matchesPrefixOf, Bool.and_eq_true, decide_eq_true_eq]

theorem covers_refl (pattern : JsonPathPattern) : covers pattern pattern = true := by
  have hself : ∀ tokens : List String, StartMatch tokens tokens := by
    intro tokens
    induction tokens with
    | nil => trivial
    | cons token tokens ih => exact ⟨Or.inr rfl, ih⟩
  exact matchesPrefixOf_iff.mpr (hself pattern.tokens)

theorem covers_trans (first second third : JsonPathPattern) (h : covers first second = true)
    (h' : covers second third = true) : covers first third = true :=
  matchesPrefixOf_iff.mpr (startMatch_trans (matchesPrefixOf_iff.mp h) (matchesPrefixOf_iff.mp h'))

theorem covers_antisymm (first second : JsonPathPattern) (h : covers first second = true)
    (h' : covers second first = true) : first = second :=
  ext (startMatch_antisymm (matchesPrefixOf_iff.mp h) (matchesPrefixOf_iff.mp h'))

/-- What a covered pattern matches is matched by what covers it. -/
theorem matchesPrefixOf_of_covers (h : covers first second = true)
    (hpath : second.matchesPrefixOf path = true) : first.matchesPrefixOf path = true :=
  matchesPrefixOf_iff.mpr (startMatch_trans (matchesPrefixOf_iff.mp h) (matchesPrefixOf_iff.mp hpath))

/-- A pattern matches a prefix of a path, or the path leads to it. -/
def meets (pattern : JsonPathPattern) (path : List String) : Bool :=
  pattern.matchesPrefixOf path || pattern.pathIsPrefix path

theorem meets_iff : first.meets path = true ↔ tokensMatch first.tokens path = true := by
  rw [tokensMatch_iff, meets, matchesPrefixOf, pathIsPrefix]
  simp

theorem meets_of_covers (h : covers first second = true) (hpath : second.meets path = true) :
    first.meets path = true :=
  meets_iff.mpr (tokensMatch_of_startMatch (matchesPrefixOf_iff.mp h) (meets_iff.mp hpath))

end JsonPathPattern

end Termivar.ApiEvidence
