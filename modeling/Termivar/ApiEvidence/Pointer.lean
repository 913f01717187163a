/-
# Looking up a pointer

`serde_json::Value::pointer`: the value at a JSON pointer. The pointer of a
pattern leads where its segments do (`pointer_asStr`), and sorting members does
not change what is found (`lookup_sorted`). For exact patterns, a visit under a
profile notes something selected exactly if a selected pointer leads to a value
of which something is there (`material_iff`).
-/
import Termivar.ApiEvidence.Projection

namespace Termivar.ApiEvidence

open List JsonPathPattern Value

variable {F : Type}

/-! ### Indices -/

/-- Decimal digits without a leading zero. -/
def IsNumeral (digits : List Char) : Prop :=
  digits ≠ [] ∧ (∀ c ∈ digits, c.isDigit = true) ∧ (digits.head? = some '0' → digits = ['0'])

instance (digits : List Char) : Decidable (IsNumeral digits) :=
  inferInstanceAs (Decidable (_ ∧ _ ∧ (_ → _)))

/-- `parse_index`. An index past the largest one is past the end of every
array. -/
def parseIndex (token : String) : Option Nat :=
  if IsNumeral token.toList then some (Nat.ofDigitChars 10 token.toList 0) else none

theorem toNat_digitChar : ∀ n < 10, (Nat.digitChar n).toNat = 48 + n := by decide

/-- The number of a digit, whose digit it is. -/
theorem digitChar_of_isDigit {c : Char} (h : c.isDigit = true) :
    c.toNat - '0'.toNat < 10 ∧ Nat.digitChar (c.toNat - '0'.toNat) = c := by
  have hrg : 48 ≤ c.toNat ∧ c.toNat ≤ 57 := by
    simpa [Char.isDigit, UInt32.le_iff_toNat_le] using h
  have hsm : c.toNat - '0'.toNat < 10 := by
    show c.toNat - 48 < 10
    omega
  refine ⟨hsm, Char.toNat_inj.mp ?_⟩
  rw [toNat_digitChar _ hsm]
  show 48 + (c.toNat - 48) = c.toNat
  omega

theorem toDigits_of_isNumeral {digits : List Char} (h : IsNumeral digits) :
    Nat.toDigits 10 (Nat.ofDigitChars 10 digits 0) = digits := by
  induction digits using reverseRecOn with
  | nil => exact absurd rfl h.1
  | append_singleton front last ih =>
    obtain ⟨-, hdigs, hzero⟩ := h
    have hlast : last.isDigit = true := hdigs last (by simp)
    have hvalue := digitChar_of_isDigit hlast
    rw [Nat.ofDigitChars_append, Nat.ofDigitChars_cons, Nat.ofDigitChars_nil]
    cases front with
    | nil =>
      rw [Nat.ofDigitChars_nil, Nat.mul_zero, Nat.zero_add, Nat.toDigits_of_lt_base hvalue.1, hvalue.2]
      rfl
    | cons first more =>
      have hfirst : first ≠ '0' := fun heq => by
        have hsh := hzero (by rw [heq]; rfl)
        simp at hsh
      have hfr : IsNumeral (first :: more) := by
        refine ⟨cons_ne_nil _ _, fun c hc => hdigs c (mem_append_left _ hc), fun heq => ?_⟩
        exact absurd (Option.some.inj heq) hfirst
      have hpos : 0 < Nat.ofDigitChars 10 (first :: more) 0 := by
        rw [Nat.pos_iff_ne_zero]
        intro hnone
        have hdig := ih hfr
        rw [hnone, Nat.toDigits_zero] at hdig
        exact hfirst (cons.inj hdig).1.symm
      rw [← Nat.toDigits_append_toDigits (by decide) hpos hvalue.1, ih hfr,
        Nat.toDigits_of_lt_base hvalue.1, hvalue.2]

theorem isNumeral_toDigits (n : Nat) : IsNumeral (Nat.toDigits 10 n) := by
  refine ⟨Nat.toDigits_ne_nil,
    fun c hc => Nat.isDigit_of_mem_toDigits (by decide) (by decide) hc, ?_⟩
  induction n using Nat.base_induction 10 (by decide) with
  | single m hm =>
    rw [Nat.toDigits_of_lt_base hm]
    exact fun h => by rw [Option.some.inj h]
  | digit m k hk hm ih =>
    rw [← Nat.toDigits_append_toDigits (by decide) hm hk]
    intro h
    rw [head?_append_of_ne_nil _ Nat.toDigits_ne_nil] at h
    have hvalue := congrArg (fun digits => Nat.ofDigitChars 10 digits 0) (ih h)
    simp only [Nat.ofDigitChars_ten_toDigits] at hvalue
    exact absurd hm (by rw [hvalue]; decide)

/-- **An index is parsed exactly from its own text.** -/
theorem parseIndex_eq_some_iff {token : String} {index : Nat} :
    parseIndex token = some index ↔ token = toString index := by
  have hlist : (toString index).toList = Nat.toDigits 10 index := Nat.toList_repr
  unfold parseIndex
  constructor
  · intro h
    split_ifs at h with hnum
    cases h
    rw [← String.toList_inj, hlist, toDigits_of_isNumeral hnum]
  · rintro rfl
    rw [hlist, if_pos (isNumeral_toDigits index), Nat.ofDigitChars_ten_toDigits]

/-! ### Lookups -/

namespace Value

/-- The value that one segment leads to. -/
def child (token : String) : Value F → Option (Value F)
  | .object members => (members.find? fun member => member.1 = token).map Prod.snd
  | .array items => (parseIndex token).bind fun index => items[index]?
  | _ => none

/-- The value that segments lead to. -/
def lookup : List String → Value F → Option (Value F)
  | [], value => some value
  | token :: tokens, value => (value.child token).bind (lookup tokens)

end Value

/-- `str::replace` of two characters. -/
def replacePair (first second replacement : Char) : List Char → List Char
  | a :: b :: rest =>
    if a = first ∧ b = second then replacement :: replacePair first second replacement rest
    else a :: replacePair first second replacement (b :: rest)
  | short => short

/-- `replace("~1", "/").replace("~0", "~")`. -/
def unescape (segment : List Char) : List Char :=
  replacePair '~' '0' '~' (replacePair '~' '1' '/' segment)

/-- `serde_json::Value::pointer`. -/
def Value.pointer (pointer : String) (value : Value F) : Option (Value F) :=
  if pointer = "" then some value
  else if pointer.toList.head? ≠ some '/' then none
  else value.lookup (((pointer.toList.splitOn '/').drop 1).map fun segment =>
    String.ofList (unescape segment))

section Escapes

variable {first second replacement : Char}

theorem replacePair_cons_of_ne {c : Char} (h : c ≠ first) (rest : List Char) :
    replacePair first second replacement (c :: rest) =
      c :: replacePair first second replacement rest := by
  cases rest with
  | nil => rfl
  | cons d rest => rw [replacePair, if_neg fun both => h both.1]

theorem replacePair_pair (rest : List Char) :
    replacePair first second replacement (first :: second :: rest) =
      replacement :: replacePair first second replacement rest := by
  rw [replacePair, if_pos ⟨rfl, rfl⟩]

theorem replacePair_other {other : Char} (h : other ≠ second) (hne : other ≠ first)
    (rest : List Char) : replacePair first second replacement (first :: other :: rest) =
      first :: other :: replacePair first second replacement rest := by
  rw [replacePair, if_neg fun both => h both.2, replacePair_cons_of_ne hne]

end Escapes

/-- Unescaping undoes escaping. -/
theorem unescape_encodeToken (token : List Char) : unescape (encodeToken token) = token := by
  have hslash : ∀ token : List Char, replacePair '~' '1' '/' (encodeToken token) =
      replaceChar '~' ['~', '0'] token := by
    intro token
    induction token with
    | nil => rfl
    | cons c cs ih =>
      rw [encodeToken_cons, replaceChar, flatMap_cons, ← replaceChar, ← ih]
      split_ifs with htilde hc
      · exact replacePair_other (by decide) (by decide) _
      · rw [hc]
        exact replacePair_pair _
      · exact replacePair_cons_of_ne htilde _
  rw [unescape, hslash]
  induction token with
  | nil => rfl
  | cons c cs ih =>
    rw [replaceChar, flatMap_cons, ← replaceChar]
    split_ifs with htilde
    · rw [htilde]
      exact (replacePair_pair _).trans (congrArg _ ih)
    · exact (replacePair_cons_of_ne htilde _).trans (congrArg _ ih)

/-- **The pointer of a pattern leads where its segments do.** -/
theorem pointer_asStr (pattern : JsonPathPattern) (value : Value F) :
    value.pointer pattern.asStr = value.lookup pattern.tokens := by
  obtain ⟨canonical, tokens, rfl, _, _⟩ := pattern
  show value.pointer (encodePointer tokens) = value.lookup tokens
  unfold Value.pointer
  by_cases hemp : encodePointer tokens = ""
  · rw [if_pos hemp]
    cases tokens with
    | nil => rfl
    | cons token tokens =>
      have hlist := congrArg String.toList hemp
      rw [encodePointer_eq] at hlist
      simp [joinSegments] at hlist
  · have hhead : ¬ (encodePointer tokens).toList.head? ≠ some '/' := fun hne =>
      encodePointer_start tokens ⟨hemp, hne⟩
    have hno : ∀ segment ∈ tokens.map fun token => encodeToken token.toList, '/' ∉ segment := by
      intro segment hsegm
      obtain ⟨token, -, rfl⟩ := mem_map.mp hsegm
      exact not_mem_encodeToken token.toList
    rw [if_neg hemp, if_neg hhead, encodePointer_eq, ← nil_append (joinSegments _),
      splitOn_joinSegments not_mem_nil hno, drop_one, tail_cons, map_map]
    congr 1
    refine (map_congr_left fun token _ => ?_).trans (map_id tokens)
    rw [Function.comp_apply, unescape_encodeToken, String.ofList_toList, id]

/-! ### Sorted members -/

section Sorted

variable {members : List (String × Value F)}

theorem mem_sortMembers {member : String × Value F} :
    member ∈ sortMembers members ↔ member ∈ members :=
  (perm_insertionSort _ members).mem_iff

/-- Among members with different names, the one of a name is found wherever it
stands. -/
theorem find?_eq_some_iff_of_nodup {name : String}
    {member : String × Value F} (hnd : (members.map Prod.fst).Nodup) :
    (members.find? fun member => member.1 = name) = some member ↔
      member ∈ members ∧ member.1 = name := by
  constructor
  · intro h
    exact ⟨mem_of_find?_eq_some h, by simpa using find?_some h⟩
  · rintro ⟨hmem, rfl⟩
    cases hfind : members.find? fun other => other.1 = member.1 with
    | none =>
      have hnone := find?_eq_none.mp hfind member hmem
      simp at hnone
    | some other =>
      have hoth : other.1 = member.1 := by simpa using find?_some hfind
      rw [inj_on_of_nodup_map hnd (mem_of_find?_eq_some hfind) hmem hoth]

theorem nodup_sortedMembers (hnd : (members.map Prod.fst).Nodup) :
    ((sortMembers (sortedMembers members)).map Prod.fst).Nodup := by
  refine (((perm_insertionSort _ _).map Prod.fst).nodup_iff).mpr ?_
  rw [sortedMembers_eq, map_map]
  exact hnd

theorem sortedItems_eq_map (items : List (Value F)) : sortedItems items = items.map sorted := by
  induction items with
  | nil => rfl
  | cons item items ih => rw [sortedItems, ih, map_cons]

theorem child_sorted {value : Value F} (hkd : value.Keyed) (token : String) :
    value.sorted.child token = (value.child token).map sorted := by
  cases value with
  | null | bool | number | string => rfl
  | array items =>
    rw [sorted, child, child, sortedItems_eq_map]
    cases parseIndex token <;> simp
  | object members =>
    obtain ⟨hnd, -⟩ := hkd
    have hnd' := nodup_sortedMembers hnd
    rw [sorted, child, child]
    cases hfind : members.find? fun member => member.1 = token with
    | none =>
      have hnone : (sortMembers (sortedMembers members)).find?
          (fun member => member.1 = token) = none := by
        rw [find?_eq_none]
        intro member hmbr
        rw [mem_sortMembers, sortedMembers_eq] at hmbr
        obtain ⟨original, horig, rfl⟩ := mem_map.mp hmbr
        exact find?_eq_none.mp hfind original horig
      rw [hnone]
      rfl
    | some member =>
      obtain ⟨hmem, hname⟩ := (find?_eq_some_iff_of_nodup hnd).mp hfind
      have hsome : (sortMembers (sortedMembers members)).find?
          (fun member => member.1 = token) = some (member.1, member.2.sorted) := by
        rw [find?_eq_some_iff_of_nodup hnd', mem_sortMembers, sortedMembers_eq]
        exact ⟨mem_map.mpr ⟨member, hmem, rfl⟩, hname⟩
      rw [hsome]
      rfl

theorem keyed_child {value found : Value F} {token : String} (hkd : value.Keyed)
    (h : value.child token = some found) : found.Keyed := by
  cases value with
  | null | bool | number | string => cases h
  | array items =>
    rw [Value.Keyed, keyedItems_iff] at hkd
    obtain ⟨index, -, hitem⟩ := Option.bind_eq_some_iff.mp h
    exact hkd found (mem_of_getElem? hitem)
  | object members =>
    obtain ⟨-, hit⟩ := hkd
    rw [keyedMembers_iff] at hit
    obtain ⟨member, hfind, rfl⟩ := Option.map_eq_some_iff.mp h
    exact hit member (mem_of_find?_eq_some hfind)

/-- Sorting members does not change what is found. -/
theorem lookup_sorted : ∀ {tokens : List String} {value : Value F}, value.Keyed →
    value.sorted.lookup tokens = (value.lookup tokens).map sorted
  | [], _, _ => rfl
  | token :: tokens, value, hkd => by
    rw [Value.lookup, Value.lookup, child_sorted hkd]
    cases hch : value.child token with
    | none => rfl
    | some found => exact lookup_sorted (keyed_child hkd hch)

mutual

/-- Sorting members leaves their names different. -/
theorem keyed_sorted : ∀ {value : Value F}, value.Keyed → value.sorted.Keyed
  | .null, h | .bool _, h | .number _, h | .string _, h => h
  | .array items, h => keyed_sortedItems h
  | .object members, h => by
    refine ⟨nodup_sortedMembers h.1, keyedMembers_iff.mpr fun member hmbr => ?_⟩
    exact keyedMembers_iff.mp (keyed_sortedMembers h.2) member (mem_sortMembers.mp hmbr)

theorem keyed_sortedItems : ∀ {items : List (Value F)}, Value.KeyedItems items →
    Value.KeyedItems (sortedItems items)
  | [], _ => trivial
  | _ :: _, h => ⟨keyed_sorted h.1, keyed_sortedItems h.2⟩

theorem keyed_sortedMembers : ∀ {members : List (String × Value F)}, Value.KeyedMembers members →
    Value.KeyedMembers (sortedMembers members)
  | [], _ => trivial
  | (_, _) :: _, h => ⟨keyed_sorted h.1, keyed_sortedMembers h.2⟩

end

end Sorted

/-! ### Something selected -/

section Selected

variable {sha256 : Bytes → Bytes} {profile : ApiComparisonProfile sha256}

theorem isSome_project (path : List String) (value : Value F) :
    (value.project profile path).isSome = profile.keeps path := by
  cases value <;> rw [project] <;> split_ifs with h <;> simp_all

/-- Something of an array is kept. -/
theorem projectItems_ne_nil_iff (path : List String) : ∀ (position : Nat) (items : List (Value F)),
    projectItems profile path position items ≠ [] ↔
      ∃ index < items.length, profile.keeps (path ++ [toString (position + index)]) = true
  | position, [] => by simp [projectItems]
  | position, item :: items => by
    rw [projectItems, ne_eq, append_eq_nil_iff, not_and_or, ← ne_eq, ← ne_eq,
      projectItems_ne_nil_iff path (position + 1) items]
    have hfirst : (item.project profile (path ++ [toString position])).toList ≠ [] ↔
        profile.keeps (path ++ [toString position]) = true := by
      rw [← isSome_project (path ++ [toString position]) item]
      cases item.project profile (path ++ [toString position]) <;> simp
    rw [hfirst]
    constructor
    · rintro (hkeep | ⟨index, hidx, hkeep⟩)
      · exact ⟨0, Nat.succ_pos _, hkeep⟩
      · exact ⟨index + 1, Nat.succ_lt_succ hidx, by rwa [Nat.add_right_comm] at hkeep⟩
    · rintro ⟨index, hidx, hkeep⟩
      cases index with
      | zero => exact Or.inl hkeep
      | succ index =>
        exact Or.inr ⟨index, Nat.lt_of_succ_lt_succ hidx, by rwa [Nat.add_right_comm]⟩

/-- Something of an object is kept. -/
theorem projectMembers_ne_nil_iff (path : List String) (members : List (String × Value F)) :
    projectMembers profile path members ≠ [] ↔
      ∃ member ∈ members, profile.keeps (path ++ [member.1]) = true := by
  induction members with
  | nil => simp [projectMembers]
  | cons member members ih =>
    obtain ⟨name, item⟩ := member
    rw [projectMembers, ne_eq, append_eq_nil_iff, not_and_or, ← ne_eq, ← ne_eq, ih,
      exists_mem_cons_iff]
    have hfirst : ((item.project profile (path ++ [name])).map (Prod.mk name)).toList ≠ [] ↔
        profile.keeps (path ++ [name]) = true := by
      rw [← isSome_project (path ++ [name]) item]
      cases item.project profile (path ++ [name]) <;> simp
    rw [hfirst]

/-- Sorting members does not change whether something is there. -/
theorem present_sorted (path : List String) (value : Value F) :
    value.sorted.present profile path = value.present profile path := by
  cases value with
  | null | bool | number | string => rfl
  | array items =>
    rw [sorted, present, present, Bool.eq_iff_iff, Bool.not_eq_true',
      Bool.not_eq_true', isEmpty_eq_false_iff, isEmpty_eq_false_iff,
      projectItems_ne_nil_iff, projectItems_ne_nil_iff, sortedItems_eq_map, length_map]
  | object members =>
    rw [sorted, present, present, Bool.eq_iff_iff, Bool.not_eq_true',
      Bool.not_eq_true', isEmpty_eq_false_iff, isEmpty_eq_false_iff,
      projectMembers_ne_nil_iff, projectMembers_ne_nil_iff]
    simp only [mem_sortMembers, sortedMembers_eq, mem_map, exists_exists_and_eq_and]

/-- Segments lead, through what is kept, to a selected value of which something
is there. -/
structure Leads (profile : ApiComparisonProfile sha256) (path tokens : List String)
    (value found : Value F) : Prop where
  leads : value.lookup tokens = some found
  kept : ∀ front, front <+: tokens → profile.keeps (path ++ front) = true
  selected : profile.isSelectedRoot (path ++ tokens) = true
  present : found.present profile (path ++ tokens) = true

theorem Leads.cons {path tokens : List String} {token : String} {value next found : Value F}
    (hkeep : profile.keeps path = true) (hch : value.child token = some next)
    (h : Leads profile (path ++ [token]) tokens next found) :
    Leads profile path (token :: tokens) value found where
  leads := by rw [Value.lookup, hch, Option.bind_some, h.leads]
  kept front hfr := by
    cases front with
    | nil => rwa [append_nil]
    | cons first front =>
      obtain ⟨rfl, hrest⟩ := cons_prefix_cons.mp hfr
      rw [append_cons]
      exact h.kept front hrest
  selected := by
    rw [append_cons]
    exact h.selected
  present := by
    rw [append_cons]
    exact h.present

theorem Leads.nil {path : List String} {value : Value F} (hkeep : profile.keeps path = true)
    (hselected : profile.isSelectedRoot path = true) (hpres : value.present profile path = true) :
    Leads profile path [] value value where
  leads := rfl
  kept front hfr := by
    rw [prefix_nil.mp hfr, append_nil]
    exact hkeep
  selected := by rwa [append_nil]
  present := by rwa [append_nil]

mutual

/-- Where a visit notes something selected, some segments lead to it. -/
theorem leads_of_material : ∀ {path : List String} {value : Value F}, value.Keyed →
    value.material profile path = true → ∃ tokens found, Leads profile path tokens value found
  | path, .null, _, h | path, .bool _, _, h | path, .number _, _, h | path, .string _, _, h => by
    simp only [material, Bool.and_eq_true] at h
    exact ⟨[], _, Leads.nil h.1 h.2.1 h.2.2⟩
  | path, .array items, hkd, h => by
    simp only [material, Bool.and_eq_true, Bool.or_eq_true] at h
    obtain ⟨hkeep, ⟨hselected, hpres⟩ | hit⟩ := h
    · exact ⟨[], _, Leads.nil hkeep hselected hpres⟩
    · obtain ⟨index, item, hitem, tokens, found, hleads⟩ := leads_of_materialItems hkd hit
      refine ⟨toString index :: tokens, found, Leads.cons hkeep ?_ (by simpa using hleads)⟩
      rw [child, parseIndex_eq_some_iff.mpr rfl, Option.bind_some, hitem]
  | path, .object members, hkd, h => by
    simp only [material, Bool.and_eq_true, Bool.or_eq_true] at h
    obtain ⟨hkeep, ⟨hselected, hpres⟩ | hmems⟩ := h
    · exact ⟨[], _, Leads.nil hkeep hselected hpres⟩
    · obtain ⟨member, hmbr, tokens, found, hleads⟩ := leads_of_materialMembers hkd.2 hmems
      refine ⟨member.1 :: tokens, found, Leads.cons hkeep ?_ hleads⟩
      rw [child, (find?_eq_some_iff_of_nodup hkd.1).mpr ⟨hmbr, rfl⟩]
      rfl

theorem leads_of_materialItems : ∀ {path : List String} {position : Nat} {items : List (Value F)},
    Value.KeyedItems items → materialItems profile path position items = true →
    ∃ (index : Nat) (item : Value F), items[index]? = some item ∧ ∃ tokens found,
      Leads profile (path ++ [toString (position + index)]) tokens item found
  | path, position, [], _, h => by cases h
  | path, position, item :: items, hkd, h => by
    rw [materialItems, Bool.or_eq_true] at h
    rcases h with h | h
    · exact ⟨0, item, rfl, leads_of_material hkd.1 h⟩
    · obtain ⟨index, other, hoth, hleads⟩ := leads_of_materialItems hkd.2 h
      exact ⟨index + 1, other, hoth, by rwa [Nat.add_right_comm] at hleads⟩

theorem leads_of_materialMembers : ∀ {path : List String} {members : List (String × Value F)},
    Value.KeyedMembers members → materialMembers profile path members = true →
    ∃ member ∈ members, ∃ tokens found, Leads profile (path ++ [member.1]) tokens member.2 found
  | path, [], _, h => by cases h
  | path, (name, item) :: members, hkd, h => by
    rw [materialMembers, Bool.or_eq_true] at h
    rcases h with h | h
    · exact ⟨(name, item), mem_cons_self, leads_of_material hkd.1 h⟩
    · obtain ⟨member, hmbr, hleads⟩ := leads_of_materialMembers hkd.2 h
      exact ⟨member, mem_cons_of_mem _ hmbr, hleads⟩

end

theorem material_of_items {path : List String} : ∀ {position index : Nat} {items : List (Value F)}
    {item : Value F}, items[index]? = some item →
    item.material profile (path ++ [toString (position + index)]) = true →
    materialItems profile path position items = true
  | _, _, [], _, hitem, _ => by simp at hitem
  | position, 0, first :: items, item, hitem, h => by
    obtain rfl : first = item := Option.some.inj hitem
    rw [Nat.add_zero] at h
    rw [materialItems, h, Bool.true_or]
  | position, index + 1, first :: items, item, hitem, h => by
    rw [materialItems, @material_of_items path (position + 1) index items item hitem
      (by rwa [Nat.add_right_comm]), Bool.or_true]

theorem material_of_members {path : List String} : ∀ {members : List (String × Value F)}
    {member : String × Value F}, member ∈ members →
    member.2.material profile (path ++ [member.1]) = true →
    materialMembers profile path members = true
  | (name, item) :: members, member, hmbr, h => by
    rw [materialMembers, Bool.or_eq_true]
    rcases mem_cons.mp hmbr with rfl | hmbr
    · exact Or.inl h
    · exact Or.inr (material_of_members hmbr h)

/-- A child with something selected makes its value one. -/
theorem material_of_child {path : List String} {value next : Value F} {token : String}
    (hkeep : profile.keeps path = true) (hch : value.child token = some next)
    (h : next.material profile (path ++ [token]) = true) : value.material profile path = true := by
  cases value with
  | null | bool | number | string => cases hch
  | array items =>
    obtain ⟨index, hidx, hitem⟩ := Option.bind_eq_some_iff.mp hch
    obtain rfl := parseIndex_eq_some_iff.mp hidx
    rw [material, hkeep, material_of_items hitem (by rwa [Nat.zero_add]), Bool.or_true,
      Bool.and_true]
  | object members =>
    obtain ⟨member, hfind, rfl⟩ := Option.map_eq_some_iff.mp hch
    obtain rfl : member.1 = token := by simpa using find?_some hfind
    rw [material, hkeep, material_of_members (mem_of_find?_eq_some hfind) h, Bool.or_true,
      Bool.and_true]

theorem material_of_leads : ∀ {tokens path : List String} {value found : Value F},
    Leads profile path tokens value found → value.material profile path = true
  | [], path, value, found, h => by
    obtain rfl : value = found := Option.some.inj h.leads
    have hkeep := h.kept [] nil_prefix
    have hselected := h.selected
    have hpres := h.present
    rw [append_nil] at hkeep hselected hpres
    cases value <;> simp only [material, hkeep, hselected, hpres, Bool.and_self, Bool.true_or]
  | token :: tokens, path, value, found, h => by
    obtain ⟨next, hch, hlook⟩ := Option.bind_eq_some_iff.mp h.leads
    have hkeep := h.kept [] nil_prefix
    rw [append_nil] at hkeep
    refine material_of_child hkeep hch (material_of_leads ⟨hlook, fun front hfr => ?_, ?_, ?_⟩)
    · rw [← append_cons]
      exact h.kept (token :: front) (cons_prefix_cons.mpr ⟨rfl, hfr⟩)
    · rw [← append_cons]
      exact h.selected
    · rw [← append_cons]
      exact h.present

/-! ### Exact patterns -/

/-- Some patterns are selected, none of them the root and none with a wildcard. -/
structure ExactProfile (profile : ApiComparisonProfile sha256) : Prop where
  selects : profile.selectedPaths ≠ []
  nonroot : ∀ pattern ∈ profile.selectedPaths, pattern.tokens ≠ []
  plain : ∀ pattern ∈ profile.selectedPaths, "*" ∉ pattern.tokens

theorem tokensMatch_self (tokens : List String) : tokensMatch tokens tokens = true := by
  induction tokens with
  | nil => rfl
  | cons token tokens ih => exact (tokensMatch_cons _ _ _ _).mpr ⟨Or.inr rfl, ih⟩

/-- Without wildcards, a pattern matches its own segments alone. -/
theorem eq_of_tokensMatch : ∀ {pattern path : List String}, "*" ∉ pattern →
    pattern.length = path.length → tokensMatch pattern path = true → pattern = path
  | [], [], _, _, _ => rfl
  | [], _ :: _, _, hlength, _ => by simp at hlength
  | _ :: _, [], _, hlength, _ => by simp at hlength
  | expected :: pattern, actual :: path, hplain, hlength, h => by
    obtain ⟨hfirst, hrest⟩ := (tokensMatch_cons _ _ _ _).mp h
    rw [mem_cons, not_or] at hplain
    rw [eq_of_tokensMatch hplain.2 (by simpa using hlength) hrest]
    rcases hfirst with hstar | rfl
    · exact absurd hstar.symm hplain.1
    · rfl

theorem startMatch_of_isPrefix : ∀ {front tokens : List String}, front <+: tokens →
    StartMatch front tokens
  | [], _, _ => trivial
  | first :: front, [], h => absurd (prefix_nil.mp h) (cons_ne_nil _ _)
  | first :: front, token :: tokens, h => by
    obtain ⟨rfl, hrest⟩ := cons_prefix_cons.mp h
    exact ⟨Or.inr rfl, startMatch_of_isPrefix hrest⟩

theorem ExactProfile.isSelectedRoot_iff (h : ExactProfile profile) (path : List String) :
    profile.isSelectedRoot path = true ↔
      ∃ pattern ∈ profile.selectedPaths, pattern.tokens = path := by
  have hsel : profile.selectedPaths.isEmpty = false := by
    simpa using h.selects
  rw [ApiComparisonProfile.isSelectedRoot, hsel, if_neg Bool.false_ne_true, any_eq_true]
  refine exists_congr fun pattern => and_congr_right fun hpat => ?_
  rw [matchesExactly, Bool.and_eq_true, decide_eq_true_eq]
  constructor
  · rintro ⟨hlength, hmatch⟩
    exact eq_of_tokensMatch (h.plain pattern hpat) hlength hmatch
  · rintro rfl
    exact ⟨rfl, tokensMatch_self _⟩

/-- What leads to a selected pattern is kept: it is relevant, and an ignored
pattern that covered it would cover the selected one. -/
theorem keeps_of_prefix {pattern : JsonPathPattern} (hpat : pattern ∈ profile.selectedPaths)
    {front : List String} (hfr : front <+: pattern.tokens) : profile.keeps front = true := by
  have hrel : profile.isRelevant front = true := by
    rw [ApiComparisonProfile.isRelevant, Bool.or_eq_true, any_eq_true]
    refine Or.inr ⟨pattern, hpat, ?_⟩
    obtain ⟨rest, hrest⟩ := hfr
    rw [meets, pathIsPrefix, Bool.or_eq_true, ← hrest]
    refine Or.inr ?_
    simp [tokensMatch_self]
  have hign : profile.isIgnored front = false := by
    rw [Bool.eq_false_iff]
    intro hany
    obtain ⟨other, hoth, hmatch⟩ := any_eq_true.mp hany
    have hconf : conflicting profile.selectedPaths profile.ignoredPaths = true := by
      refine any_eq_true.mpr ⟨pattern, hpat, any_eq_true.mpr ⟨other, hoth, ?_⟩⟩
      exact matchesPrefixOf_iff.mpr (startMatch_trans
        (matchesPrefixOf_iff.mp hmatch) (startMatch_of_isPrefix hfr))
    rw [profile.compatible] at hconf
    exact Bool.false_ne_true hconf
  rw [ApiComparisonProfile.keeps, hrel, hign]
  rfl

/-- **A visit notes something selected exactly if a selected pointer leads to a
value of which something is there.** -/
theorem ExactProfile.material_iff (h : ExactProfile profile) {value : Value F}
    (hkd : value.Keyed) : value.sorted.material profile [] = true ↔
      ∃ pattern ∈ profile.selectedPaths, ∃ found, value.pointer pattern.asStr = some found ∧
        found.present profile pattern.tokens = true := by
  have hsort := keyed_sorted hkd
  constructor
  · intro hmat
    obtain ⟨tokens, found, hleads⟩ := leads_of_material hsort hmat
    obtain ⟨pattern, hpat, rfl⟩ := (h.isSelectedRoot_iff tokens).mp hleads.selected
    have hlook := hleads.leads
    rw [lookup_sorted hkd] at hlook
    obtain ⟨original, horig, rfl⟩ := Option.map_eq_some_iff.mp hlook
    refine ⟨pattern, hpat, original, ?_, ?_⟩
    · rw [pointer_asStr, horig]
    · rw [← present_sorted]
      exact hleads.present
  · rintro ⟨pattern, hpat, found, hfnd, hpres⟩
    rw [pointer_asStr] at hfnd
    have hleads : Leads profile [] pattern.tokens value.sorted found.sorted := by
      refine ⟨?_, fun front hfr => keeps_of_prefix hpat hfr,
        (h.isSelectedRoot_iff _).mpr ⟨pattern, hpat, rfl⟩, ?_⟩
      · rw [lookup_sorted hkd, hfnd]
        rfl
      · rw [present_sorted]
        exact hpres
    exact material_of_leads hleads

end Selected

end Termivar.ApiEvidence
