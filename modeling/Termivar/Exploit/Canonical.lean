/-
# Canonical version requirements

A requirement in canonical form is a fixed point of normalization: its text is
parsed as the same comparators, which print as the same sorted texts, and it
matches the versions the original matches. The length of a text is checked
before it is brought into canonical form, though, and the canonical text is
longer where an operator was implicit or a separator had no blank: it is read
back exactly if it is within the limit itself.
-/
import Termivar.Exploit.Applicability

namespace Termivar.Exploit

open List

/-- A comparator the package gives for some text. -/
def Semver.Parsed (S : Semver) (comparator : S.Comparator) : Prop :=
  ∃ text comparators, S.parse text = some comparators ∧ comparator ∈ comparators

/-- What the package documents: the text of a comparator is parsed back; a
requirement is a list of up to 32 comparators between commas, and it has none
only if it is the wildcard; a comparator is printed as a version behind an
operator; and a requirement matches by the set of its comparators. -/
structure Semver.Documented (S : Semver) : Prop where
  reads {comparator : S.Comparator} (h : S.Parsed comparator) :
    S.parse (S.display comparator) = some [comparator]
  comma {left right : String} {comparators comparators' : List S.Comparator}
    (hleft : S.parse left = some comparators) (hright : S.parse right = some comparators')
    (hne : comparators ≠ []) (hne' : comparators' ≠ [])
    (hlength : comparators.length + comparators'.length ≤ 32) :
    S.parse (left ++ ", " ++ right) = some (comparators ++ comparators')
  bounded {text : String} {comparators : List S.Comparator} (h : S.parse text = some comparators) :
    comparators.length ≤ 32
  wildcard {text : String} (h : S.parse text = some []) : text.toList.any Char.isDigit = false
  printed {comparator : S.Comparator} (h : S.Parsed comparator) :
    (∀ c ∈ (S.display comparator).toList, allowedVersionChar true c = true ∧ c ≠ ' ') ∧
      (S.display comparator).toList.any Char.isDigit = true
  matched {comparators comparators' : List S.Comparator} (version : S.Version)
    (h : ∀ comparator, comparator ∈ comparators ↔ comparator ∈ comparators') :
    S.admits comparators version = S.admits comparators' version

variable {S : Semver}

/-! ### Joined texts -/

theorem joinComma_cons {text : String} {texts : List String} (h : texts ≠ []) :
    joinComma (text :: texts) = text ++ ", " ++ joinComma texts := by
  cases texts with
  | nil => exact absurd rfl h
  | cons next texts => rfl

theorem byteSize_joinComma : ∀ texts : List String, (joinComma texts).utf8ByteSize =
    (texts.map String.utf8ByteSize).sum + 2 * (texts.length - 1)
  | [] => rfl
  | [text] => by simp [joinComma]
  | text :: next :: texts => by
    have hcom : (", " : String).utf8ByteSize = 2 := by decide
    rw [joinComma_cons (by simp), String.utf8ByteSize_append, String.utf8ByteSize_append, hcom,
      byteSize_joinComma (next :: texts)]
    simp only [map_cons, sum_cons, length_cons]
    omega

theorem mem_joinComma {c : Char} : ∀ {texts : List String}, c ∈ (joinComma texts).toList →
    c = ',' ∨ c = ' ' ∨ ∃ text ∈ texts, c ∈ text.toList
  | [], h => by simp [joinComma] at h
  | [text], h => Or.inr (Or.inr ⟨text, by simp, h⟩)
  | text :: next :: texts, h => by
    rw [joinComma_cons (by simp)] at h
    simp only [String.toList_append, mem_append] at h
    obtain (h | h) | h := h
    · exact Or.inr (Or.inr ⟨text, by simp, h⟩)
    · have hcom : (", " : String).toList = [',', ' '] := by decide
      rw [hcom] at h
      simp only [mem_cons, not_mem_nil, or_false] at h
      tauto
    · obtain h | h | ⟨other, hoth, hmem⟩ := mem_joinComma h
      · exact Or.inl h
      · exact Or.inr (Or.inl h)
      · exact Or.inr (Or.inr ⟨other, by simp [hoth], hmem⟩)

theorem head_joinComma {text : String} {texts : List String} (h : text.toList ≠ []) :
    (joinComma (text :: texts)).toList.head? = text.toList.head? := by
  cases texts with
  | nil => rfl
  | cons next texts =>
    rw [joinComma_cons (by simp)]
    simp only [String.toList_append, append_assoc]
    exact head?_append_of_ne_nil _ h

theorem last_joinComma : ∀ {texts : List String}, texts ≠ [] → (∀ text ∈ texts, text.toList ≠ []) →
    ∃ text ∈ texts, (joinComma texts).toList.getLast? = text.toList.getLast?
  | [], h, _ => absurd rfl h
  | [text], _, _ => ⟨text, by simp, rfl⟩
  | text :: next :: texts, _, hall => by
    obtain ⟨other, hoth, hlast⟩ :=
      @last_joinComma (next :: texts) (by simp) fun text hmem => hall text (by simp [hmem])
    refine ⟨other, by simp [hoth], ?_⟩
    have hne : (joinComma (next :: texts)).toList ≠ [] := by
      intro hnil
      have hhead := @head_joinComma next texts (hall next (by simp))
      rw [hnil] at hhead
      exact hall next (by simp) (head?_eq_none_iff.mp hhead.symm)
    rw [joinComma_cons (by simp), String.toList_append, getLast?_append_of_ne_nil _ hne, hlast]

/-! ### Canonical texts -/

/-- The texts of comparators, each once and in order. -/
def canonicalTexts (S : Semver) (comparators : List S.Comparator) : List String :=
  (Std.ExtTreeSet.ofList (comparators.map S.display)).toList

/-- The bytes of the distinct texts of comparators, with a comma and a blank
between two of them. -/
def renderedBytes (S : Semver) (comparators : List S.Comparator) : Nat :=
  let texts := (comparators.map S.display).dedup
  (texts.map String.utf8ByteSize).sum + 2 * (texts.length - 1)

theorem mem_canonicalTexts {comparators : List S.Comparator} {text : String} :
    text ∈ canonicalTexts S comparators ↔ ∃ comparator ∈ comparators, S.display comparator = text := by
  rw [canonicalTexts, Std.ExtTreeSet.mem_toList, Std.ExtTreeSet.mem_ofList, contains_iff_mem,
    mem_map]

variable (comparators : List S.Comparator) {c : Char}

theorem nodup_canonicalTexts :
    (canonicalTexts S comparators).Nodup := by
  refine List.Pairwise.imp ?_ (Std.ExtTreeSet.distinct_toList)
  intro left right h heq
  exact h (by simp [heq])

theorem byteSize_canonicalText :
    (canonicalText S comparators).utf8ByteSize = renderedBytes S comparators := by
  have hperm : (canonicalTexts S comparators).Perm (comparators.map S.display).dedup := by
    refine (perm_ext_iff_of_nodup (nodup_canonicalTexts _) (nodup_dedup _)).mpr ?_
    intro text
    rw [mem_canonicalTexts, mem_dedup, mem_map]
  have hsum := (hperm.map String.utf8ByteSize).sum_eq
  have hlength := hperm.length_eq
  rw [canonicalTexts] at hsum hlength
  rw [canonicalText, byteSize_joinComma, renderedBytes, hsum, hlength]

/-- The canonical texts are those of some of the comparators. -/
theorem exists_comparators :
    ∃ chosen : List S.Comparator, chosen.map S.display = canonicalTexts S comparators ∧
      ∀ comparator ∈ chosen, comparator ∈ comparators := by
  have hchoose : ∀ texts : List String, (∀ text ∈ texts, text ∈ canonicalTexts S comparators) →
      ∃ chosen : List S.Comparator, chosen.map S.display = texts ∧
        ∀ comparator ∈ chosen, comparator ∈ comparators := by
    intro texts
    induction texts with
    | nil => exact fun _ => ⟨[], rfl, by simp⟩
    | cons text texts ih =>
      intro h
      obtain ⟨comparator, hmem, htext⟩ := mem_canonicalTexts.mp (h text (by simp))
      obtain ⟨chosen, hcho, hall⟩ := ih fun text hmem => h text (by simp [hmem])
      refine ⟨comparator :: chosen, by simp [htext, hcho], ?_⟩
      exact forall_mem_cons.mpr ⟨hmem, hall⟩
  exact hchoose _ fun _ h => h

/-- Comparators that print as canonical texts have these as canonical texts. -/
theorem canonicalTexts_self {chosen comparators : List S.Comparator}
    (h : chosen.map S.display = canonicalTexts S comparators) :
    canonicalTexts S chosen = canonicalTexts S comparators := by
  rw [canonicalTexts, h, canonicalTexts]
  congr 1
  refine Std.ExtTreeSet.ext_mem fun text => ?_
  simp [Std.ExtTreeSet.mem_ofList, Std.ExtTreeSet.mem_toList]

theorem length_canonicalTexts_le :
    (canonicalTexts S comparators).length ≤ comparators.length := by
  have hsub : ∀ text ∈ canonicalTexts S comparators, text ∈ comparators.map S.display := by
    intro text hmem
    obtain ⟨comparator, hcomp, rfl⟩ := mem_canonicalTexts.mp hmem
    exact mem_map_of_mem hcomp
  have hle := (subperm_of_subset (nodup_canonicalTexts comparators) hsub).length_le
  simpa using hle

namespace Semver.Documented

/-- A joined list of comparators is parsed back. -/
theorem reads_all (hS : S.Documented) : ∀ {chosen : List S.Comparator}, chosen ≠ [] →
    (∀ comparator ∈ chosen, S.Parsed comparator) → chosen.length ≤ 32 →
    S.parse (joinComma (chosen.map S.display)) = some chosen
  | [], h, _, _ => absurd rfl h
  | [comparator], _, hprd, _ => hS.reads (hprd comparator (by simp))
  | comparator :: next :: chosen, _, hprd, hlength => by
    have hrest := @reads_all hS (next :: chosen) (by simp)
      (fun other hmem => hprd other (by simp [hmem])) (by simp at hlength ⊢; omega)
    have hfirst := hS.reads (hprd comparator (by simp))
    rw [map_cons, joinComma_cons (by simp)]
    exact hS.comma hfirst hrest (by simp) (by simp) (by simpa [Nat.add_comm] using hlength)

theorem display_injective (hS : S.Documented) {left right : S.Comparator} (hleft : S.Parsed left)
    (hright : S.Parsed right) (h : S.display left = S.display right) : left = right := by
  have hboth := (hS.reads hleft).symm.trans ((congrArg S.parse h).trans (hS.reads hright))
  exact head_eq_of_cons_eq (Option.some.inj hboth)

/-- **The canonical text keeps the requirement.** It is parsed as comparators
that have the same canonical text and match the same versions. -/
theorem canonicalText_parse (hS : S.Documented) {text : String} {comparators : List S.Comparator}
    (h : S.parse text = some comparators) (hne : comparators ≠ []) :
    ∃ chosen, S.parse (canonicalText S comparators) = some chosen ∧
      canonicalText S chosen = canonicalText S comparators ∧
      ∀ version, S.admits chosen version = S.admits comparators version := by
  obtain ⟨chosen, hcho, hall⟩ := exists_comparators comparators
  have hprd {comparator : S.Comparator} (hmem : comparator ∈ comparators) :
      S.Parsed comparator := ⟨text, comparators, h, hmem⟩
  have hchos : chosen ≠ [] := by
    rintro rfl
    obtain ⟨comparator, hmem⟩ := exists_mem_of_ne_nil _ hne
    have htext : S.display comparator ∈ canonicalTexts S comparators :=
      mem_canonicalTexts.mpr ⟨comparator, hmem, rfl⟩
    rw [← hcho] at htext
    cases htext
  have hlength : chosen.length ≤ 32 := by
    have hle := length_canonicalTexts_le comparators
    rw [← hcho, length_map] at hle
    exact le_trans hle (hS.bounded h)
  refine ⟨chosen, ?_, ?_, fun version => hS.matched version fun comparator => ?_⟩
  · have hread := hS.reads_all hchos (fun _ hmem => hprd (hall _ hmem)) hlength
    rw [hcho] at hread
    exact hread
  · exact congrArg joinComma (canonicalTexts_self hcho)
  · constructor
    · exact hall comparator
    · intro hmem
      have htext : S.display comparator ∈ chosen.map S.display := by
        rw [hcho]
        exact mem_canonicalTexts.mpr ⟨comparator, hmem, rfl⟩
      obtain ⟨other, hoth, hsame⟩ := mem_map.mp htext
      have heq := hS.display_injective (hprd (hall other hoth)) (hprd hmem) hsame
      exact heq ▸ hoth

end Semver.Documented

/-! ### Checking the canonical text -/

theorem not_whitespace_of_alphanum (h : c.isAlphanum = true) : isWhitespace c = false := by
  have hrg : (65 ≤ c.toNat ∧ c.toNat ≤ 90) ∨ (97 ≤ c.toNat ∧ c.toNat ≤ 122) ∨
      48 ≤ c.toNat ∧ c.toNat ≤ 57 := by
    simp only [Char.isAlphanum, Char.isAlpha, Char.isUpper, Char.isLower, Char.isDigit,
      Bool.or_eq_true, Bool.and_eq_true, decide_eq_true_eq, UInt32.le_iff_toNat_le, ge_iff_le] at h
    obtain (h | h) | h := h
    · exact Or.inl h
    · exact Or.inr (Or.inl h)
    · exact Or.inr (Or.inr h)
  simp only [isWhitespace, Bool.or_eq_false_iff, Bool.and_eq_false_iff, decide_eq_false_iff_not]
  omega

theorem not_whitespace (h : allowedVersionChar true c = true) (hblk : c ≠ ' ') :
    isWhitespace c = false := by
  simp only [allowedVersionChar, Bool.or_eq_true, Bool.true_and, decide_eq_true_eq] at h
  obtain (((((h | rfl) | rfl) | rfl) | rfl) | ((((((((rfl | rfl) | rfl) | rfl) | rfl) | rfl) | rfl) |
    rfl) | rfl)) := h
  · exact not_whitespace_of_alphanum h
  all_goals first | decide | exact absurd rfl hblk

theorem validateVersionText_eq_ok {value : String} {requirement : Bool} :
    validateVersionText value requirement = .ok () ↔ value ≠ "" ∧
      value.utf8ByteSize ≤ (if requirement then maxRequirementBytes else maxIdBytes) ∧
      hasOuterWhitespace value = false ∧ value.toList.all (allowedVersionChar requirement) = true ∧
      (requirement = true → value.toList.any Char.isDigit = true) := by
  unfold validateVersionText
  dsimp only
  generalize (if requirement = true then maxRequirementBytes else maxIdBytes) = maximum
  split_ifs with h
  · refine iff_of_false nofun ?_
    rintro ⟨hne, hsize, houter, hall, hdig⟩
    obtain h | h | h | h | ⟨h, h'⟩ := h
    · exact hne h
    · omega
    · simp [houter] at h
    · simp [hall] at h
    · simp [hdig h] at h'
  · refine iff_of_true rfl ?_
    simp only [not_or, not_and, not_lt, Bool.not_eq_true, Bool.not_eq_false'] at h
    simpa using h

/-- The canonical text passes the check exactly if it is within the limit. -/
theorem Semver.Documented.validate_canonicalText (hS : S.Documented) {text : String}
    {comparators : List S.Comparator} (h : S.parse text = some comparators) (hne : comparators ≠ []) :
    validateVersionText (canonicalText S comparators) true = .ok () ↔
      renderedBytes S comparators ≤ maxRequirementBytes := by
  have hprin {shown : String} (hmem : shown ∈ canonicalTexts S comparators) :
      (∀ c ∈ shown.toList, allowedVersionChar true c = true ∧ c ≠ ' ') ∧
        shown.toList.any Char.isDigit = true := by
    obtain ⟨comparator, hcomp, rfl⟩ := mem_canonicalTexts.mp hmem
    exact hS.printed ⟨text, comparators, h, hcomp⟩
  have hchr {shown : String} (hmem : shown ∈ canonicalTexts S comparators) : shown.toList ≠ [] := by
    intro hnil
    have hdig := (hprin hmem).2
    rw [hnil] at hdig
    cases hdig
  obtain ⟨first, rest, htexts⟩ : ∃ first rest, canonicalTexts S comparators = first :: rest := by
    obtain ⟨comparator, hmem⟩ := exists_mem_of_ne_nil _ hne
    have htext : S.display comparator ∈ canonicalTexts S comparators :=
      mem_canonicalTexts.mpr ⟨comparator, hmem, rfl⟩
    cases hcases : canonicalTexts S comparators with
    | nil =>
      rw [hcases] at htext
      cases htext
    | cons first rest => exact ⟨first, rest, rfl⟩
  have hjoined : canonicalText S comparators = joinComma (canonicalTexts S comparators) := rfl
  have hfirst : first ∈ canonicalTexts S comparators := by simp [htexts]
  have hhead : (canonicalText S comparators).toList.head? = first.toList.head? := by
    rw [hjoined, htexts]
    exact head_joinComma (hchr hfirst)
  obtain ⟨last, hlast, hend⟩ := @last_joinComma (canonicalTexts S comparators) (by simp [htexts])
    fun _ hmem => hchr hmem
  have hedge {shown : String} (hmem : shown ∈ canonicalTexts S comparators) {c : Char}
      (hc : c ∈ shown.toList) : isWhitespace c = false :=
    not_whitespace ((hprin hmem).1 c hc).1 ((hprin hmem).1 c hc).2
  rw [validateVersionText_eq_ok, byteSize_canonicalText]
  refine ⟨fun hall => hall.2.1, fun hsize => ⟨?_, hsize, ?_, ?_, fun _ => ?_⟩⟩
  · intro hemp
    rw [hemp] at hhead
    exact hchr hfirst (head?_eq_none_iff.mp hhead.symm)
  · rw [hasOuterWhitespace, hhead, hjoined, hend, Bool.or_eq_false_iff]
    constructor
    · cases hc : first.toList.head? with
      | none => rfl
      | some c => exact hedge hfirst (mem_of_mem_head? hc)
    · cases hc : last.toList.getLast? with
      | none => rfl
      | some c => exact hedge hlast (mem_of_mem_getLast? hc)
  · rw [all_eq_true]
    intro c hc
    obtain rfl | rfl | ⟨shown, hmem, hc⟩ := mem_joinComma (hjoined ▸ hc)
    · decide
    · decide
    · exact ((hprin hmem).1 c hc).1
  · obtain ⟨c, hc, hdig⟩ := any_eq_true.mp (hprin hfirst).2
    refine any_eq_true.mpr ⟨c, ?_, hdig⟩
    rw [hjoined, htexts]
    cases rest with
    | nil => exact hc
    | cons next rest =>
      rw [joinComma_cons (by simp)]
      simp [hc]

/-! ### Canonical rules -/

namespace VersionApplicability

/-- A rule is accepted again as it is, and so is what it is written as. -/
structure Survives (S : Semver) (version : VersionApplicability) : Prop where
  fixed : version.normalized S = .ok version
  valid : version.validate S = .ok ()
  read : deserialize S version.serialize = .ok version

theorem readRaw_serialize (version : VersionApplicability) :
    readRaw version.serialize = .ok version := by
  cases version with
  | evidencePredicate id =>
    have hread : readPrerequisiteId (.text id.value) = .ok id := by
      simp only [readPrerequisiteId, Wire.readText, Except.mapError, bind, Except.bind]
      split
      · rfl
      · rename_i failure hfail
        cases hfail.symm.trans id.checked
    show ((ofContent .evidencePredicate (some (.text id.value))) : Except _ _) = _
    simp only [ofContent, hread, bind, Except.bind]
    rfl
  | _ => rfl

variable {version : VersionApplicability} {comparators : List S.Comparator}

theorem survives_iff :
    Survives S version ↔ version.normalized S = .ok version := by
  refine ⟨fun h => h.fixed, fun h => ⟨h, ?_, ?_⟩⟩
  · simp only [validate, h, bind, Except.bind]
    rfl
  · simp only [deserialize, readRaw_serialize, h, bind, Except.bind]
    rfl

theorem normalized_requirement_ok {text : String}
    (h : normalized S (.semanticVersionRequirement text) = .ok version) :
    ∃ comparators, validateVersionText text true = .ok () ∧ S.parse text = some comparators ∧
      version = .semanticVersionRequirement (canonicalText S comparators) := by
  unfold normalized at h
  obtain ⟨⟨⟩, hvalid, h⟩ := bind_ok h
  cases hprs : S.parse text with
  | none =>
    rw [hprs] at h
    cases h
  | some comparators =>
    rw [hprs] at h
    cases h
    exact ⟨comparators, hvalid, rfl, rfl⟩

/-- A requirement that passed the check has a comparator. -/
theorem comparators_ne_nil (hS : S.Documented) {text : String}
    (hvalid : validateVersionText text true = .ok ()) (h : S.parse text = some comparators) :
    comparators ≠ [] := by
  rintro rfl
  have hdig := (validateVersionText_eq_ok.mp hvalid).2.2.2.2 rfl
  rw [hS.wildcard h] at hdig
  cases hdig

/-- The canonical text is normalized to itself exactly if it is within the limit. -/
theorem normalized_canonical (hS : S.Documented) {text : String}
    (h : S.parse text = some comparators) (hne : comparators ≠ []) :
    normalized S (.semanticVersionRequirement (canonicalText S comparators)) =
        .ok (.semanticVersionRequirement (canonicalText S comparators)) ↔
      renderedBytes S comparators ≤ maxRequirementBytes := by
  obtain ⟨chosen, hcho, hcan, -⟩ := hS.canonicalText_parse h hne
  rw [← hS.validate_canonicalText h hne]
  constructor
  · intro hfixed
    exact (normalized_requirement_ok hfixed).choose_spec.1
  · intro hvalid
    simp only [normalized, hvalid, hcho, bind, Except.bind, hcan]
    rfl

/-- A requirement keeps the versions it matches. -/
theorem admits_canonical (hS : S.Documented) {text : String} (h : S.parse text = some comparators)
    (hne : comparators ≠ []) (actual : S.Version) :
    (VersionApplicability.semanticVersionRequirement (canonicalText S comparators)).admits S actual =
      (VersionApplicability.semanticVersionRequirement text).admits S actual := by
  obtain ⟨chosen, hcho, -, hadmits⟩ := hS.canonicalText_parse h hne
  simp [admits, hcho, h, hadmits]

theorem exactVersion_survives {text : String} (h : exactVersion S text = .ok version) :
    Survives S version := by
  refine survives_iff.mpr ?_
  unfold exactVersion normalized at h
  obtain ⟨⟨⟩, hvalid, h⟩ := bind_ok h
  cases h
  simp only [normalized, hvalid, bind, Except.bind]
  rfl

/-- A rule that is normalized to one that is normalized again survives. -/
theorem survives_of_normalized_twice (hS : S.Documented) {raw version next : VersionApplicability}
    (h : raw.normalized S = .ok version) (hagain : version.normalized S = .ok next) :
    Survives S version := by
  refine survives_iff.mpr ?_
  cases raw with
  | exact value => exact (exactVersion_survives h).fixed
  | semanticVersionRequirement text =>
    obtain ⟨comparators, hvalid, hprs, rfl⟩ := normalized_requirement_ok h
    obtain ⟨-, hvalid', -, -⟩ := normalized_requirement_ok hagain
    have hne := comparators_ne_nil hS hvalid hprs
    exact (normalized_canonical hS hprs hne).mpr ((hS.validate_canonicalText hprs hne).mp hvalid')
  | evidencePredicate id =>
    cases h
    rfl
  | unsupported =>
    cases h
    rfl

end VersionApplicability

open VersionApplicability

/-- **When a requirement survives.** An accepted requirement is a fixed point of
normalization, passes its validation, is read back from what it is written as
and matches the versions of the original exactly if the texts of its distinct
comparators, with a comma and a blank between two of them, are within the
limit. Every other rule survives, and so does the version of all admitted
applicability requirements. -/
theorem requirement_survives_iff {S : Semver} (hS : S.Documented) :
    (∀ text version, requirement S text = .ok version → ∃ comparators,
      S.parse text = some comparators ∧
      ((Survives S version ∧ ∀ actual, version.admits S actual =
          (VersionApplicability.semanticVersionRequirement text).admits S actual) ↔
        renderedBytes S comparators ≤ maxRequirementBytes)) ∧
    (∀ text version, exactVersion S text = .ok version → Survives S version) ∧
    (∀ id, Survives S (.evidencePredicate id)) ∧ Survives S .unsupported ∧
    ∀ raw value, ExploitApplicabilityRequirements.tryFrom S raw = .ok value →
      Survives S value.version := by
  refine ⟨fun text version h => ?_, fun _ _ => exactVersion_survives,
    fun id => survives_iff.mpr rfl, survives_iff.mpr rfl, fun raw value h => ?_⟩
  · obtain ⟨comparators, hvalid, hprs, rfl⟩ := normalized_requirement_ok h
    have hne := comparators_ne_nil hS hvalid hprs
    refine ⟨comparators, hprs, ?_⟩
    rw [survives_iff, normalized_canonical hS hprs hne]
    exact and_iff_left (admits_canonical hS hprs hne)
  · unfold ExploitApplicabilityRequirements.tryFrom at h
    obtain ⟨value', hnorm, h⟩ := bind_ok h
    obtain ⟨⟨⟩, hval, h⟩ := bind_ok h
    cases h
    unfold ExploitApplicabilityRequirements.normalized at hnorm
    obtain ⟨version, hvers, hnorm⟩ := bind_ok hnorm
    cases hnorm
    unfold ExploitApplicabilityRequirements.validate at hval
    obtain ⟨-, -, hval⟩ := bind_ok hval
    obtain ⟨⟨⟩, hvalid, -⟩ := bind_ok hval
    unfold VersionApplicability.validate at hvalid
    obtain ⟨next, hnext, -⟩ := bind_ok hvalid
    exact survives_of_normalized_twice hS hvers hnext

/-! ### Requirements with the default operator -/

/-- The versions of a requirement whose operators are all the default one. -/
def isCaretBody (body : List Char) : Bool :=
  body.any Char.isDigit && body.all fun c => c.isAlphanum || c = '.' || c = '-'

/-- A piece between commas: blanks, the operator if it is written, a version. -/
def caretPiece (piece : List Char) : Option String :=
  let body := match piece.dropWhile (· = ' ') with
    | '^' :: body => body
    | body => body
  if isCaretBody body then some (String.ofList ('^' :: body)) else none

def caretPieces : List (List Char) → Option (List String)
  | [] => some []
  | piece :: pieces => do return (← caretPiece piece) :: (← caretPieces pieces)

/-- Requirements made of comparators with the default operator only. -/
def caretSemver : Semver where
  Comparator := String
  Version := String
  parse text := (caretPieces (text.toList.splitOn ',')).filter fun comparators =>
    comparators.length ≤ 32
  display := id
  admits comparators version := comparators.all fun comparator => comparator = "^" ++ version

theorem caretPiece_eq_some {piece : List Char} {comparator : String}
    (h : caretPiece piece = some comparator) :
    ∃ body, isCaretBody body = true ∧ comparator = String.ofList ('^' :: body) := by
  unfold caretPiece at h
  dsimp only at h
  split_ifs at h with hbody
  cases h
  exact ⟨_, hbody, rfl⟩

theorem caretPiece_self {body : List Char} (h : isCaretBody body = true) :
    caretPiece ('^' :: body) = some (String.ofList ('^' :: body)) := by
  simp [caretPiece, h]

theorem caretPiece_blank (piece : List Char) : caretPiece (' ' :: piece) = caretPiece piece := by
  simp [caretPiece]

theorem caretPieces_append : ∀ {pieces pieces' : List (List Char)} {cs cs' : List String},
    caretPieces pieces = some cs → caretPieces pieces' = some cs' →
    caretPieces (pieces ++ pieces') = some (cs ++ cs')
  | [], pieces', cs, cs', h, h' => by
    cases h
    exact h'
  | piece :: pieces, pieces', cs, cs', h, h' => by
    rw [caretPieces] at h
    obtain ⟨c, hc, h⟩ := Option.bind_eq_some_iff.mp h
    obtain ⟨rest, hrest, h⟩ := Option.bind_eq_some_iff.mp h
    cases h
    rw [cons_append, caretPieces, hc, caretPieces_append hrest h']
    rfl

theorem caretPieces_mem : ∀ {pieces : List (List Char)} {cs : List String},
    caretPieces pieces = some cs → ∀ c ∈ cs, ∃ piece, caretPiece piece = some c
  | [], cs, h, c, hmem => by
    cases h
    cases hmem
  | piece :: pieces, cs, h, c, hmem => by
    rw [caretPieces] at h
    obtain ⟨first, hfirst, h⟩ := Option.bind_eq_some_iff.mp h
    obtain ⟨rest, hrest, h⟩ := Option.bind_eq_some_iff.mp h
    cases h
    rcases mem_cons.mp hmem with rfl | hmem
    · exact ⟨piece, hfirst⟩
    · exact caretPieces_mem hrest c hmem

theorem caretPieces_blank (pieces : List (List Char)) :
    caretPieces (pieces.modifyHead (' ' :: ·)) = caretPieces pieces := by
  cases pieces with
  | nil => rfl
  | cons piece pieces => simp [caretPieces, caretPiece_blank]

theorem caretSemver_parse {text : String} {cs : List String} :
    caretSemver.parse text = some cs ↔
      caretPieces (text.toList.splitOn ',') = some cs ∧ cs.length ≤ 32 := by
  simp [caretSemver, Option.filter_eq_some_iff]

theorem caretSemver_parsed {comparator : String} (h : caretSemver.Parsed comparator) :
    ∃ body, isCaretBody body = true ∧ comparator = String.ofList ('^' :: body) := by
  obtain ⟨text, cs, hprs, hmem⟩ := h
  obtain ⟨piece, hpiece⟩ := caretPieces_mem (caretSemver_parse.mp hprs).1 comparator hmem
  exact caretPiece_eq_some hpiece

theorem allowed_of_isCaretBody {body : List Char} (h : isCaretBody body = true)
    (hmem : c ∈ '^' :: body) : allowedVersionChar true c = true ∧ c ≠ ' ' ∧ c ≠ ',' := by
  rcases mem_cons.mp hmem with rfl | hmem
  · decide
  · have hc := all_eq_true.mp (Bool.and_eq_true_iff.mp h).2 c hmem
    simp only [Bool.or_eq_true, decide_eq_true_eq] at hc
    obtain (hc | rfl) | rfl := hc
    · refine ⟨by simp [allowedVersionChar, hc], ?_, ?_⟩ <;> rintro rfl <;> cases hc
    · decide
    · decide

theorem all_eq_of_mem_iff {xs ys : List String} {p : String → Bool} (h : ∀ c, c ∈ xs ↔ c ∈ ys) :
    xs.all p = ys.all p := by
  rw [Bool.eq_iff_iff, all_eq_true, all_eq_true]
  exact forall_congr' fun c => by rw [h c]

theorem caretSemver_documented : caretSemver.Documented where
  reads {comparator} h := by
    obtain ⟨body, hbody, rfl⟩ := caretSemver_parsed h
    refine caretSemver_parse.mpr ⟨?_, show 1 ≤ 32 by decide⟩
    have hcom : ',' ∉ '^' :: body := fun hmem => (allowed_of_isCaretBody hbody hmem).2.2 rfl
    show caretPieces ((String.ofList ('^' :: body)).toList.splitOn ',') = _
    rw [String.toList_ofList, splitOn_eq_singleton hcom, caretPieces, caretPiece_self hbody]
    rfl
  comma {left right cs cs'} hleft hright _ _ hlength := by
    obtain ⟨hleft, -⟩ := caretSemver_parse.mp hleft
    obtain ⟨hright, -⟩ := caretSemver_parse.mp hright
    refine caretSemver_parse.mpr ⟨?_, le_of_eq_of_le length_append hlength⟩
    have hchr : (left ++ ", " ++ right).toList = left.toList ++ ',' :: ' ' :: right.toList := by
      have hcom : (", " : String).toList = [',', ' '] := by decide
      simp [String.toList_append, hcom]
    rw [hchr, splitOn_append_cons_self, splitOn_cons_eq_if_modifyHead]
    exact caretPieces_append hleft ((caretPieces_blank _).trans hright)
  bounded h := (caretSemver_parse.mp h).2
  wildcard {text} h := by
    obtain ⟨hpieces, -⟩ := caretSemver_parse.mp h
    cases hspl : text.toList.splitOn ',' with
    | nil => exact absurd hspl (splitOn_ne_nil _ _)
    | cons piece pieces =>
      rw [hspl, caretPieces] at hpieces
      obtain ⟨c, -, h⟩ := Option.bind_eq_some_iff.mp hpieces
      obtain ⟨rest, -, h⟩ := Option.bind_eq_some_iff.mp h
      cases h
  printed {comparator} h := by
    obtain ⟨body, hbody, rfl⟩ := caretSemver_parsed h
    show (∀ c ∈ (String.ofList ('^' :: body)).toList, _) ∧
      (String.ofList ('^' :: body)).toList.any Char.isDigit = true
    rw [String.toList_ofList]
    refine ⟨fun c hc => ⟨(allowed_of_isCaretBody hbody hc).1, (allowed_of_isCaretBody hbody hc).2.1⟩, ?_⟩
    rw [any_cons, (Bool.and_eq_true_iff.mp hbody).1, Bool.or_true]
  matched _ h := all_eq_of_mem_iff h

/-- A prerelease of the greatest length whose operator is implicit. -/
def longPrerelease : String := "1.0.0-" ++ String.ofList (replicate 122 'a')

/-- Two comparators are sorted, get their operators, and survive. -/
theorem requirement_survives_iff_short :
    requirement caretSemver "2.0.0,1.2.3" = .ok (.semanticVersionRequirement "^1.2.3, ^2.0.0") ∧
      Survives caretSemver (.semanticVersionRequirement "^1.2.3, ^2.0.0") := by
  have hreq : requirement caretSemver "2.0.0,1.2.3" =
      .ok (.semanticVersionRequirement "^1.2.3, ^2.0.0") := by decide +kernel
  obtain ⟨cs, hprs, hiff⟩ :=
    (requirement_survives_iff caretSemver_documented).1 _ _ hreq
  have hcs : caretSemver.parse "2.0.0,1.2.3" = some ["^2.0.0", "^1.2.3"] :=
    caretSemver_parse.mpr ⟨by decide +kernel, show 2 ≤ 32 by decide⟩
  cases hprs.symm.trans hcs
  exact ⟨hreq, (hiff.mpr (by decide +kernel)).1⟩

/-- A requirement is accepted, and its canonical form is refused. -/
theorem long_requirement_lost : ∃ version, requirement caretSemver longPrerelease = .ok version ∧
    version.validate caretSemver = .error .invalidVersionApplicability ∧
    deserialize caretSemver version.serialize =
      .error (.applicability .invalidVersionApplicability) :=
  ⟨.semanticVersionRequirement ("^" ++ longPrerelease), by decide +kernel, by decide +kernel,
    by decide +kernel⟩

end Termivar.Exploit
