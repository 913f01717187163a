/-
# Version keys

`termivar-scanner/src/wordpress_version.rs`: the two comparison profiles of
WordPress versions, dotted numbers and a subset of PHP's release versions, with
their parsers and their orders. PHP's order is lexicographic over the parts of
a version, where the end of a version sits between the stages before a release
and the numbers, and a patch level above all numbers.
-/
import Termivar.Framing
import Termivar.Reasoning.Posterior

namespace Termivar

open List

def maxWordpressVersionComponents : Nat := 8

def maxWordpressVersionBytes : Nat := 64

def maxPhpNumericValue : Nat := 2147483647

def maxPhpNumericDigits : Nat := 10

def isAsciiDigit (byte : UInt8) : Bool := 48 ≤ byte && byte ≤ 57

/-- The value of a decimal digit. -/
def digitValue (byte : UInt8) : Nat := byte.toNat - 48

/-! ### Dotted numbers -/

inductive NumericDottedVersionError where
  | mk
  deriving DecidableEq

/-- Removes zeros from the end of a vector, given last element first, while it
has more than one element. -/
def popZeros : List Nat → List Nat
  | 0 :: next :: rest => popZeros (next :: rest)
  | components => components

theorem popZeros_canonical : ∀ components : List Nat,
    (popZeros components).head? ≠ some 0 ∨ (popZeros components).length ≤ 1
  | [] => Or.inr (by decide)
  | [component] => Or.inr (by cases component <;> simp [popZeros])
  | 0 :: next :: rest => popZeros_canonical (next :: rest)
  | (component + 1) :: next :: rest => Or.inl (by simp [popZeros])

theorem popZeros_ne_nil : ∀ {components : List Nat}, components ≠ [] → popZeros components ≠ []
  | [], h => h
  | [component], _ => by cases component <;> simp [popZeros]
  | 0 :: next :: rest, _ => @popZeros_ne_nil (next :: rest) (by simp)
  | (component + 1) :: next :: rest, _ => by simp [popZeros]

/-- Numbers between dots, without zeros at the end. -/
structure NumericDottedVersion where
  components : List Nat
  nonempty : components ≠ []
  canonical : components.getLast? ≠ some 0 ∨ components.length ≤ 1
  deriving DecidableEq

namespace NumericDottedVersion

/-- The digits of one component. -/
def parseComponent (part : Bytes) : Option Nat :=
  part.foldlM (fun value digit => do
    checkedAdd u32Max (← checkedMul u32Max value 10) (digitValue digit)) 0

/-- The loop over the parts, with the components so far. -/
def parseParts (components : List Nat) :
    List Bytes → Except NumericDottedVersionError (List Nat)
  | [] => .ok components
  | part :: parts =>
    if components.length = maxWordpressVersionComponents ∨ part.isEmpty ∨ !part.all isAsciiDigit ∨
        (1 < part.length ∧ part.head? = some 48) then .error .mk
    else
      match parseComponent part with
      | none => .error .mk
      | some component => parseParts (components ++ [component]) parts

/-- Without the zeros at the end. -/
def ofComponents (components : List Nat) (h : components ≠ []) : NumericDottedVersion where
  components := (popZeros components.reverse).reverse
  nonempty := by simpa using popZeros_ne_nil (by simpa using h)
  canonical := by simpa using popZeros_canonical components.reverse

/-- The numbers of a text, before zeros are removed. -/
def parseNumbers (value : String) : Except NumericDottedVersionError (List Nat) :=
  let bytes := utf8Bytes value
  if bytes.isEmpty ∨ maxWordpressVersionBytes < bytes.length then .error .mk
  else parseParts [] (bytes.splitOn 46)

def parse (value : String) : Except NumericDottedVersionError NumericDottedVersion := do
  let components ← parseNumbers value
  -- a text has at least one part, so there is a component
  if h : components ≠ [] then return ofComponents components h else throw .mk

/-- The lexicographic order of the components. -/
def cmp (self other : NumericDottedVersion) : Ordering :=
  List.compareLex compare self.components other.components

end NumericDottedVersion

/-! ### PHP releases -/

inductive PhpReleaseStage where
  | dev
  | alpha
  | beta
  | rc
  | patchLevel
  deriving DecidableEq

def PhpReleaseStage.rank : PhpReleaseStage → Nat
  | .dev => 0
  | .alpha => 1
  | .beta => 2
  | .rc => 3
  | .patchLevel => 5

def phpFinalFormRank : Nat := 4

inductive PhpReleaseSubsetVersionError where
  | mk
  deriving DecidableEq

inductive PhpVersionPart where
  | number (value : Nat)
  | special (stage : PhpReleaseStage)

def comparePhpParts : PhpVersionPart → PhpVersionPart → Ordering
  | .number left, .number right => compare left right
  | .special left, .special right => compare left.rank right.rank
  | .number _, .special right => compare phpFinalFormRank right.rank
  | .special left, .number _ => compare left.rank phpFinalFormRank

/-- A bounded subset of PHP's release versions: its numbers, and a stage that
may have a counter. -/
structure PhpReleaseSubsetVersion where
  components : List Nat
  suffix : Option PhpReleaseStage
  suffixCounter : Option Nat
  deriving DecidableEq

/-- One more digit of a number. -/
def pushPhpDigit (value : Nat) (byte : UInt8) : Option Nat :=
  ((checkedMul u32Max value 10).bind fun value => checkedAdd u32Max value (digitValue byte)).filter
    fun value => value ≤ maxPhpNumericValue

/-- The loop over the digits of a number, `digits` of them read. -/
def parsePhpNumberFrom (digits value : Nat) :
    Bytes → Except PhpReleaseSubsetVersionError (Nat × Bytes)
  | [] => if digits = 0 then .error .mk else .ok (value, [])
  | byte :: rest =>
    if isAsciiDigit byte then
      if digits = maxPhpNumericDigits then .error .mk
      else
        match pushPhpDigit value byte with
        | none => .error .mk
        | some value => parsePhpNumberFrom (digits + 1) value rest
    else if digits = 0 then .error .mk
    else .ok (value, byte :: rest)

/-- A number, and the bytes after it. -/
def parsePhpNumber (bytes : Bytes) :
    Except PhpReleaseSubsetVersionError (Nat × Bytes) :=
  parsePhpNumberFrom 0 0 bytes

def isPhpSeparator (byte : UInt8) : Bool := byte = 46 || byte = 45 || byte = 95 || byte = 43

/-- The texts of the stages, in the order they are tried. -/
def phpSuffixes : List (Bytes × PhpReleaseStage) :=
  [([97, 108, 112, 104, 97], .alpha), ([98, 101, 116, 97], .beta), ([100, 101, 118], .dev),
    ([82, 67], .rc), ([114, 99], .rc), ([112, 108], .patchLevel), ([97], .alpha), ([98], .beta),
    ([112], .patchLevel)]

/-- A stage, and the bytes after it. -/
def parsePhpSuffix (remaining : Bytes) :
    Except PhpReleaseSubsetVersionError (PhpReleaseStage × Bytes) :=
  match phpSuffixes.find? fun suffix => suffix.1.isPrefixOf remaining with
  | some suffix => .ok (suffix.2, remaining.drop suffix.1.length)
  | none => .error .mk

/-- The loop over the leading numbers, with room for `room` of them: the numbers,
and the bytes of the suffix if the text does not end after them. -/
def parsePhpComponents : (room : Nat) → Bytes →
    Except PhpReleaseSubsetVersionError (List Nat × Option Bytes)
  | 0, _ => .error .mk
  | room + 1, bytes => do
    let (number, rest) ← parsePhpNumber bytes
    match rest with
    | [] => return ([number], none)
    | byte :: after =>
      if isPhpSeparator byte then
        match after with
        | [] => throw .mk
        | next :: _ =>
          if isAsciiDigit next then
            let (numbers, suffix) ← parsePhpComponents room after
            return (number :: numbers, suffix)
          else return ([number], some after)
      else return ([number], some (byte :: after))

/-- The counter behind a stage. -/
def parsePhpCounter : Bytes → Except PhpReleaseSubsetVersionError (Option Nat)
  | [] => .ok none
  | byte :: after => do
    if isPhpSeparator byte ∧ after.isEmpty then throw .mk
    let (counter, rest) ← parsePhpNumber (if isPhpSeparator byte then after else byte :: after)
    if rest ≠ [] then throw .mk
    return some counter

namespace PhpReleaseSubsetVersion

def parse (value : String) : Except PhpReleaseSubsetVersionError PhpReleaseSubsetVersion := do
  let bytes := utf8Bytes value
  if bytes.isEmpty ∨ maxWordpressVersionBytes < bytes.length ∨ bytes.any (127 < ·) ∨
      bytes.any (fun byte => byte < 32 || byte = 127) then throw .mk
  let (components, remaining) ← parsePhpComponents maxWordpressVersionComponents bytes
  match remaining with
  | none => return { components, suffix := none, suffixCounter := none }
  | some remaining =>
    let (suffix, rest) ← parsePhpSuffix remaining
    let suffixCounter ← parsePhpCounter rest
    return { components, suffix := some suffix, suffixCounter }

variable (version : PhpReleaseSubsetVersion)

def part (index : Nat) : Option PhpVersionPart :=
  let componentCount := version.components.length
  if h : index < componentCount then some (.number (version.components.get ⟨index, h⟩))
  else if index = componentCount then version.suffix.map .special
  else if index = componentCount + 1 ∧ version.suffix.isSome then
    version.suffixCounter.map .number
  else none

/-- The parts of a version. -/
def tokens : List PhpVersionPart :=
  version.components.map .number ++
    match version.suffix with
    | none => []
    | some stage => .special stage :: (version.suffixCounter.map PhpVersionPart.number).toList

theorem part_eq (index : Nat) :
    version.part index = version.tokens[index]? := by
  obtain ⟨components, suffix, counter⟩ := version
  unfold part tokens
  dsimp only
  split_ifs with hindex heq hcoun
  · simp [getElem?_append_left, hindex]
  · rw [getElem?_append_right (by simp [heq])]
    cases suffix <;> simp [heq]
  · obtain ⟨rfl, hsome⟩ := hcoun
    obtain ⟨stage, rfl⟩ := Option.isSome_iff_exists.mp hsome
    rw [getElem?_append_right (by simp)]
    cases counter <;> simp
  · have hlength : components.length + 1 ≤ index := by omega
    rw [getElem?_append_right (by simp; omega)]
    cases suffix with
    | none => simp
    | some stage =>
      have hlast : components.length + 1 < index := by
        simp only [Option.isSome_some, and_true] at hcoun
        omega
      symm
      rw [getElem?_eq_none_iff]
      cases counter <;> simp <;> omega

/-- The loop over the positions of two versions. -/
def compareFrom (self other : PhpReleaseSubsetVersion) (index : Nat) : Ordering :=
  match hself : self.part index, other.part index with
  | some left, some right =>
    let ordering := comparePhpParts left right
    if ordering ≠ .eq then ordering else compareFrom self other (index + 1)
  | none, none => .eq
  | some (.number _), none => .gt
  | none, some (.number _) => .lt
  | some (.special stage), none => compare stage.rank phpFinalFormRank
  | none, some (.special stage) => compare phpFinalFormRank stage.rank
termination_by self.tokens.length - index
decreasing_by
  have hindex : index < self.tokens.length := by
    rw [part_eq] at hself
    exact (List.getElem?_eq_some_iff.mp hself).1
  omega

def cmp (self other : PhpReleaseSubsetVersion) : Ordering := compareFrom self other 0

/-- `==` is equality in the order. -/
def eq (self other : PhpReleaseSubsetVersion) : Bool := cmp self other = .eq

end PhpReleaseSubsetVersion

/-! ### The order of PHP releases -/

/-- The places of the parts, and of the end of a version. -/
def phpRank : Option PhpVersionPart → Nat
  | some (.special stage) => stage.rank
  | _ => phpFinalFormRank

/-- The end is before the numbers. -/
def phpValue : Option PhpVersionPart → Nat
  | some (.number value) => value + 1
  | _ => 0

/-- The order of the parts and the end of a version. -/
def comparePhpPlaces : Option PhpVersionPart → Option PhpVersionPart → Ordering :=
  compareLex (compareOn phpRank) (compareOn phpValue)

instance : Std.TransCmp comparePhpPlaces :=
  inferInstanceAs (Std.TransCmp (compareLex (compareOn phpRank) (compareOn phpValue)))

instance : Std.LawfulEqCmp comparePhpPlaces :=
  lawfulEqCmp_compareLex (by simp [compareOn]) (by simp [compareOn]) (by
    intro left right hrank hvalue
    simp only [compareOn, Std.LawfulEqOrd.compare_eq_iff_eq] at hrank hvalue
    rcases left with _ | ⟨n | stage⟩ <;> rcases right with _ | ⟨m | stage'⟩ <;>
      first
      | (simp_all [phpValue]; done)
      | (cases stage <;> simp [phpRank, PhpReleaseStage.rank, phpFinalFormRank] at hrank; done)
      | (cases stage' <;> simp [phpRank, PhpReleaseStage.rank, phpFinalFormRank] at hrank; done)
      | (cases stage <;> cases stage' <;> simp_all [phpRank, PhpReleaseStage.rank]))

namespace PhpReleaseSubsetVersion

/-- The parts of a version with its end. -/
def places (tokens : List PhpVersionPart) : List (Option PhpVersionPart) := tokens.map some ++ [none]

theorem places_injective : Function.Injective places := by
  intro left right h
  exact map_injective_iff.mpr (Option.some_injective _) (append_cancel_right h)

theorem comparePhpPlaces_some (left right : PhpVersionPart) :
    comparePhpPlaces (some left) (some right) = comparePhpParts left right := by
  have hsucc (n m : Nat) : compare (n + 1) (m + 1) = compare n m := by
    simp [compare, compareOfLessAndEq]
  rcases left with n | stage <;> rcases right with m | stage'
  · simp [comparePhpPlaces, compareLex, compareOn, phpRank, phpValue, comparePhpParts, hsucc]
  · cases stage' <;> rfl
  · cases stage <;> rfl
  · simp [comparePhpPlaces, compareLex, compareOn, phpRank, phpValue, comparePhpParts]

theorem places_drop_some {version : PhpReleaseSubsetVersion} {index : Nat} {token : PhpVersionPart}
    (h : version.part index = some token) : places (version.tokens.drop index) =
      some token :: places (version.tokens.drop (index + 1)) := by
  rw [part_eq] at h
  obtain ⟨hindex, rfl⟩ := List.getElem?_eq_some_iff.mp h
  rw [List.drop_eq_getElem_cons hindex]
  rfl

theorem places_drop_none {version : PhpReleaseSubsetVersion} {index : Nat}
    (h : version.part index = none) : places (version.tokens.drop index) = [none] := by
  rw [part_eq, getElem?_eq_none_iff] at h
  rw [drop_eq_nil_of_le h]
  rfl

/-- The loop compares what is left of the two versions. -/
theorem compareFrom_eq (self other : PhpReleaseSubsetVersion) (index : Nat) :
    compareFrom self other index = List.compareLex comparePhpPlaces
      (places (self.tokens.drop index)) (places (other.tokens.drop index)) := by
  fun_induction compareFrom self other index with
  | case1 index left right hself hoth ordering hne =>
    rw [places_drop_some hself, places_drop_some hoth, List.compareLex_cons_cons,
      comparePhpPlaces_some]
    cases hpar : comparePhpParts left right with
    | eq => exact absurd hpar hne
    | _ => exact hpar
  | case2 index left right hself hoth ordering heq ih =>
    have hpar : comparePhpParts left right = .eq := not_not.mp heq
    rw [places_drop_some hself, places_drop_some hoth, List.compareLex_cons_cons,
      comparePhpPlaces_some, hpar]
    exact ih
  | case3 index hself hoth =>
    rw [places_drop_none hself, places_drop_none hoth]
    rfl
  | case4 index value hself hoth =>
    rw [places_drop_some hself, places_drop_none hoth]
    rfl
  | case5 index value hself hoth =>
    rw [places_drop_none hself, places_drop_some hoth]
    rfl
  | case6 index stage hself hoth =>
    rw [places_drop_some hself, places_drop_none hoth]
    cases stage <;> rfl
  | case7 index stage hself hoth =>
    rw [places_drop_none hself, places_drop_some hoth]
    cases stage <;> rfl

/-- The order is lexicographic over the parts and the end of a version. -/
theorem cmp_eq_compareLex (self other : PhpReleaseSubsetVersion) : cmp self other =
    List.compareLex comparePhpPlaces (places self.tokens) (places other.tokens) :=
  compareFrom_eq self other 0

instance : Std.TransCmp cmp where
  eq_swap {a b} := by
    rw [cmp_eq_compareLex, cmp_eq_compareLex]
    exact Std.OrientedCmp.eq_swap
  isLE_trans {a b c} hab hbc := by
    rw [cmp_eq_compareLex] at *
    exact Std.TransCmp.isLE_trans hab hbc

/-- Versions are equal in the order if their parts are. -/
theorem cmp_eq_eq_iff (self other : PhpReleaseSubsetVersion) :
    cmp self other = .eq ↔ self.tokens = other.tokens := by
  rw [cmp_eq_compareLex, Std.LawfulEqCmp.compare_eq_iff_eq, places_injective.eq_iff]

end PhpReleaseSubsetVersion

/-! ### The order of dotted numbers -/

/-- A list with zeros behind it, up to a length. -/
def padZeros (length : Nat) (components : List Nat) : List Nat :=
  components ++ replicate (length - components.length) 0

/-- The order of two lists padded to the same length. -/
def comparePadded (left right : List Nat) : Ordering :=
  List.compareLex compare (padZeros (max left.length right.length) left)
    (padZeros (max left.length right.length) right)

@[simp] theorem comparePadded_nil : comparePadded [] [] = .eq := rfl

theorem comparePadded_cons (x y : Nat) (left right : List Nat) :
    comparePadded (x :: left) (y :: right) = (compare x y).then (comparePadded left right) := by
  simp [comparePadded, padZeros, List.compareLex_cons_cons, Nat.succ_max_succ]

theorem comparePadded_cons_nil (x : Nat) (left : List Nat) :
    comparePadded (x :: left) [] = (compare x 0).then (comparePadded left []) := by
  simp [comparePadded, padZeros, List.compareLex_cons_cons, List.replicate_succ]

theorem comparePadded_nil_cons (y : Nat) (right : List Nat) :
    comparePadded [] (y :: right) = (compare 0 y).then (comparePadded [] right) := by
  simp [comparePadded, padZeros, List.compareLex_cons_cons, List.replicate_succ]

theorem comparePadded_swap (left right : List Nat) :
    comparePadded left right = (comparePadded right left).swap := by
  rw [comparePadded, comparePadded, max_comm]
  exact Std.OrientedCmp.eq_swap

/-- A zero at the end does not matter. -/
theorem comparePadded_concat_zero : ∀ left right : List Nat,
    comparePadded (left ++ [0]) right = comparePadded left right
  | [], [] => by rw [nil_append, comparePadded_cons_nil]; rfl
  | [], y :: right => by rw [nil_append, comparePadded_cons, comparePadded_nil_cons]
  | x :: left, [] => by
    rw [cons_append, comparePadded_cons_nil, comparePadded_cons_nil,
      comparePadded_concat_zero left []]
  | x :: left, y :: right => by
    rw [cons_append, comparePadded_cons, comparePadded_cons, comparePadded_concat_zero left right]

theorem comparePadded_popZeros (right : List Nat) : ∀ reversed : List Nat,
    comparePadded (popZeros reversed).reverse right = comparePadded reversed.reverse right
  | [] => rfl
  | [component] => by cases component <;> simp [popZeros]
  | 0 :: next :: rest => by
    have hzero : (0 :: next :: rest).reverse = (next :: rest).reverse ++ [0] := by simp
    rw [popZeros, comparePadded_popZeros right (next :: rest), hzero, comparePadded_concat_zero]
  | (component + 1) :: next :: rest => by simp [popZeros]

/-- Zeros are before a list that does not end in one. -/
theorem comparePadded_nil_lt : ∀ {right : List Nat}, right ≠ [] → right.getLast? ≠ some 0 →
    comparePadded [] right = .lt
  | [], h, _ => absurd rfl h
  | [y], _, hlast => by
    have hy : 0 < y := Nat.pos_of_ne_zero fun h => hlast (by simp [h])
    rw [comparePadded_nil_cons, Nat.compare_eq_lt.mpr hy]
    rfl
  | y :: z :: right, _, hlast => by
    have hrest := @comparePadded_nil_lt (z :: right) (by simp) (by simpa using hlast)
    rw [comparePadded_nil_cons, hrest]
    cases y with
    | zero => rfl
    | succ y => rfl

/-- Lists that do not end in a zero are compared as they are. -/
theorem compareLex_eq_padded : ∀ {left right : List Nat}, left.getLast? ≠ some 0 →
    right.getLast? ≠ some 0 → List.compareLex compare left right = comparePadded left right
  | [], [], _, _ => rfl
  | [], y :: right, _, hright => (comparePadded_nil_lt (by simp) hright).symm
  | x :: left, [], hleft, _ => by
    rw [comparePadded_swap, comparePadded_nil_lt (by simp) hleft]
    rfl
  | x :: left, y :: right, hleft, hright => by
    have htail {z : Nat} {zs : List Nat} (h : (z :: zs).getLast? ≠ some 0) :
        zs.getLast? ≠ some 0 := by
      cases zs with
      | nil => simp
      | cons w ws => simpa using h
    rw [List.compareLex_cons_cons, comparePadded_cons,
      compareLex_eq_padded (htail hleft) (htail hright)]

namespace NumericDottedVersion

/-- The components behind the first do not end in a zero. -/
theorem tail_canonical (version : NumericDottedVersion) :
    ∃ first rest, version.components = first :: rest ∧ rest.getLast? ≠ some 0 := by
  obtain ⟨components, hne, hcan⟩ := version
  cases components with
  | nil => exact absurd rfl hne
  | cons first rest =>
    refine ⟨first, rest, rfl, ?_⟩
    cases rest with
    | nil => simp
    | cons next rest => simpa using hcan

/-- The order is that of the components padded with zeros. -/
theorem cmp_eq_padded (self other : NumericDottedVersion) :
    cmp self other = comparePadded self.components other.components := by
  obtain ⟨x, left, hself, hleft⟩ := self.tail_canonical
  obtain ⟨y, right, hoth, hright⟩ := other.tail_canonical
  rw [cmp, hself, hoth, List.compareLex_cons_cons, comparePadded_cons,
    compareLex_eq_padded hleft hright]

theorem comparePadded_ofComponents {left right : List Nat} (hleft : left ≠ []) (hright : right ≠ []) :
    comparePadded (ofComponents left hleft).components (ofComponents right hright).components =
      comparePadded left right := by
  simp only [ofComponents]
  rw [comparePadded_popZeros, comparePadded_swap, comparePadded_popZeros, ← comparePadded_swap,
    reverse_reverse, reverse_reverse]

theorem cmp_eq_eq_iff (self other : NumericDottedVersion) : cmp self other = .eq ↔ self = other := by
  rw [cmp, Std.LawfulEqCmp.compare_eq_iff_eq]
  cases self
  cases other
  simp

end NumericDottedVersion

end Termivar
