/-
# The indexed scan agrees with brute force

The matcher never tries all patterns at a position: it goes through the anchor
groups, reads one byte for each, and verifies the candidates indexed under that
byte. The index holds every signature once, under its own anchor, and a pattern
that occurs shows its anchor, so nothing is missed and nothing is found twice.
The observations are collected start by start; a stop leaves those of the
starts before the frontier and some of the next.
-/
import Termivar.Artifact.Builder
import Termivar.Artifact.Agreement

namespace Termivar

open Command ArtifactMatchObservation List

/-! ### Occurrences -/

/-- Every atom of the pattern fits the byte at its place. -/
def ArtifactPattern.OccursAt (pattern : ArtifactPattern) (input : Bytes) (offset : Nat) : Prop :=
  ∀ i atom, pattern.atoms[i]? = some atom →
    ∃ byte, input[offset + i]? = some byte ∧ (atom = .wildcard ∨ atom = .exact byte)

namespace ArtifactPattern

variable {pattern : ArtifactPattern} {input : Bytes} {offset : Nat}

theorem len_pos (pattern : ArtifactPattern) : 0 < pattern.len :=
  Nat.lt_of_le_of_lt (Nat.zero_le _) pattern.anchor_lt_len

theorem OccursAt.end_le (h : pattern.OccursAt input offset) : offset + pattern.len ≤ input.length := by
  have hpos := pattern.len_pos
  unfold len at *
  obtain ⟨byte, hbyte, -⟩ := h (pattern.atoms.length - 1) _ (List.getElem?_eq_getElem (by omega))
  have hlt := (List.getElem?_eq_some_iff.mp hbyte).1
  omega

/-- What occurs in a prefix occurs in the whole. -/
theorem OccursAt.of_take {n : Nat} (h : pattern.OccursAt (input.take n) offset) :
    pattern.OccursAt input offset := by
  intro i atom hatom
  obtain ⟨byte, hbyte, hfits⟩ := h i atom hatom
  refine ⟨byte, ?_, hfits⟩
  rw [getElem?_take] at hbyte
  split_ifs at hbyte
  exact hbyte

theorem atomMatches_iff {atom : PatternAtom} {byte : UInt8} :
    atomMatches atom byte = true ↔ atom = .wildcard ∨ atom = .exact byte := by
  cases atom <;> simp [atomMatches]

/-- The bytes the matcher compares are those of the input. -/
theorem getElem?_window {i n : Nat} (h : i < n) :
    ((input.drop offset).take n)[i]? = input[offset + i]? := by
  rw [getElem?_take_of_lt h, getElem?_drop]

/-- The comparison of the matcher finds exactly the occurrences. -/
theorem matchesAt_iff (hsm : input.length ≤ u64Max) :
    pattern.matchesAt input offset = true ↔ pattern.OccursAt input offset := by
  have hlen : pattern.len = pattern.atoms.length := rfl
  unfold matchesAt window
  by_cases hend : offset + pattern.len ≤ input.length
  · rw [checkedAdd_eq_some.mpr ⟨le_trans hend hsm, rfl⟩]
    simp only [Nat.le_add_right, hend, and_self, if_true, Nat.add_sub_cancel_left, all_eq_true]
    constructor
    · intro h i atom hatom
      have hi : i < pattern.atoms.length := (List.getElem?_eq_some_iff.mp hatom).1
      have hbyte : input[offset + i]? = some input[offset + i] :=
        getElem?_eq_getElem (by omega)
      refine ⟨_, hbyte, atomMatches_iff.mp (h (atom, input[offset + i]) ?_)⟩
      refine mem_iff_getElem?.mpr ⟨i, getElem?_zip_eq_some.mpr ⟨hatom, ?_⟩⟩
      rw [getElem?_window (by omega), hbyte]
    · rintro h ⟨atom, byte⟩ hmem
      obtain ⟨i, hi⟩ := mem_iff_getElem?.mp hmem
      obtain ⟨hatom, hbyte⟩ := getElem?_zip_eq_some.mp hi
      obtain ⟨shown, hshown, hfits⟩ := h i atom hatom
      have hlt : i < pattern.atoms.length := (List.getElem?_eq_some_iff.mp hatom).1
      rw [getElem?_window (by omega), hshown, Option.some.injEq] at hbyte
      exact atomMatches_iff.mpr (hbyte ▸ hfits)
  · constructor
    · intro h
      rcases hadd : checkedAdd u64Max offset pattern.len with _ | stop
      · simp [hadd] at h
      · obtain ⟨-, rfl⟩ := checkedAdd_eq_some.mp hadd
        simp [hadd, hend] at h
    · intro h
      exact absurd h.end_le hend

theorem atom_of_mem_literals {atoms : List PatternAtom} {offset : Nat} {byte : UInt8}
    (h : (offset, byte) ∈ literals atoms) : atoms[offset]? = some (.exact byte) := by
  obtain ⟨⟨atom, index⟩, hmem, hatom⟩ := mem_filterMap.mp h
  cases atom with
  | exact b =>
    simp only [Option.some.injEq, Prod.mk.injEq] at hatom
    obtain ⟨rfl, rfl⟩ := hatom
    exact mem_zipIdx_iff_getElem?.mp hmem
  | wildcard => simp at hatom

/-- A pattern that occurs shows its anchor. -/
theorem OccursAt.anchor (h : pattern.OccursAt input offset) :
    input[offset + pattern.anchor.1]? = some pattern.anchor.2 := by
  have hatom : pattern.atoms[pattern.anchor.1]? = some (.exact pattern.anchor.2) :=
    atom_of_mem_literals (head_mem _)
  obtain ⟨byte, hbyte, hfits⟩ := h _ _ hatom
  rcases hfits with hwild | hexact
  · cases hwild
  · rw [hbyte, PatternAtom.exact.inj hexact]

end ArtifactPattern

/-! ### The index -/

/-- The candidates indexed under an offset and a byte. -/
def lookupAnchor (groups : AnchorGroups) (offset : Nat) (byte : UInt8) : List Nat :=
  (groups[offset]?.getD ∅)[byte]?.getD []

theorem lookup_push (groups : AnchorGroups) (entry : ArtifactCatalogSignature × Nat) (offset : Nat)
    (byte : UInt8) : lookupAnchor (pushAnchor groups entry) offset byte =
      lookupAnchor groups offset byte ++
        if entry.1.pattern.anchor = (offset, byte) then [entry.2] else [] := by
  unfold lookupAnchor pushAnchor
  simp only [get_insert, Prod.ext_iff]
  by_cases hoffset : entry.1.pattern.anchor.1 = offset
  · subst hoffset
    by_cases hbyte : entry.1.pattern.anchor.2 = byte
    · subst hbyte
      simp
    · simp [get_insert, hbyte]
  · simp [hoffset]

/-- The index holds every signature once, under its anchor. -/
theorem lookup_indexAnchors (signatures : List ArtifactCatalogSignature) (offset : Nat)
    (byte : UInt8) : lookupAnchor (indexAnchors signatures) offset byte =
      (signatures.zipIdx.filter fun entry => entry.1.pattern.anchor = (offset, byte)).map (·.2) := by
  have hfold : ∀ (entries : List (ArtifactCatalogSignature × Nat)) (groups : AnchorGroups),
      lookupAnchor (entries.foldl pushAnchor groups) offset byte =
        lookupAnchor groups offset byte ++
          (entries.filter fun entry => entry.1.pattern.anchor = (offset, byte)).map (·.2) := by
    intro entries
    induction entries with
    | nil => simp
    | cons entry entries ih =>
      intro groups
      rw [foldl_cons, ih, lookup_push, append_assoc]
      by_cases hanchor : entry.1.pattern.anchor = (offset, byte)
      · simp [hanchor]
      · simp [hanchor]
  have hemp : lookupAnchor ∅ offset byte = [] := by simp [lookupAnchor]
  unfold indexAnchors
  rw [hfold, hemp, nil_append]

/-! ### What the matcher finds -/

/-- The observation of a signature at a start. -/
def observationOf (start : Nat) (signature : ArtifactCatalogSignature) : ArtifactMatchObservation :=
  { signature := signature.signatureRef, absoluteOffset := start
    patternLength := signature.pattern.len
    observationClass := signature.observationClass, ordinal := 0 }

section Found

variable (catalog : ArtifactCatalog) (input : Bytes)

/-- What verifying a candidate adds. -/
def foundBy (start candidate : Nat) : List ArtifactMatchObservation :=
  match catalog.signatures[candidate]? with
  | some signature => if signature.pattern.matchesAt input start then [observationOf start signature] else []
  | none => []

/-- The candidates of a group at a start. -/
def candidatesAt (start : Nat) (group : Nat × BTreeMap UInt8 (List Nat)) : List Nat :=
  match input[start + group.1]? with
  | some byte => group.2[byte]?.getD []
  | none => []

/-- What probing a group adds. -/
def foundIn (start : Nat) (group : Nat × BTreeMap UInt8 (List Nat)) : List ArtifactMatchObservation :=
  (candidatesAt input start group).flatMap (foundBy catalog input start)

/-- What one start adds. -/
def foundAt (start : Nat) : List ArtifactMatchObservation :=
  catalog.anchorGroups.toList.flatMap (foundIn catalog input start)

/-- What the starts before the frontier add. -/
def foundBefore (frontier : Nat) : List ArtifactMatchObservation :=
  (range frontier).flatMap (foundAt catalog input)

theorem foundBefore_succ (frontier : Nat) : foundBefore catalog input (frontier + 1) =
    foundBefore catalog input frontier ++ foundAt catalog input frontier := by
  unfold foundBefore
  rw [range_succ, flatMap_append, flatMap_singleton]

variable {catalog input}

variable {o : ArtifactMatchObservation}

theorem mem_foundBy {start candidate : Nat} :
    o ∈ foundBy catalog input start candidate ↔ ∃ signature,
      catalog.signatures[candidate]? = some signature ∧
        signature.pattern.matchesAt input start = true ∧ o = observationOf start signature := by
  unfold foundBy
  cases catalog.signatures[candidate]? with
  | none => simp
  | some signature =>
    by_cases h : signature.pattern.matchesAt input start = true <;> simp [h]

theorem candidatesAt_eq {group : Nat × BTreeMap UInt8 (List Nat)}
    (hgrp : group ∈ catalog.anchorGroups.toList) (start : Nat) :
    candidatesAt input start group = match input[start + group.1]? with
      | some byte => (catalog.signatures.zipIdx.filter fun entry =>
          entry.1.pattern.anchor = (group.1, byte)).map (·.2)
      | none => [] := by
  have hget : catalog.anchorGroups[group.1]? = some group.2 := mem_toList.mp hgrp
  unfold candidatesAt
  cases input[start + group.1]? with
  | none => rfl
  | some byte =>
    simp only
    rw [← lookup_indexAnchors, ← catalog.anchorGroups_eq]
    simp only [lookupAnchor, hget, Option.getD_some]

theorem mem_candidatesAt {group : Nat × BTreeMap UInt8 (List Nat)}
    (hgrp : group ∈ catalog.anchorGroups.toList) {start candidate : Nat} :
    candidate ∈ candidatesAt input start group ↔ ∃ signature,
      catalog.signatures[candidate]? = some signature ∧ signature.pattern.anchor.1 = group.1 ∧
        input[start + group.1]? = some signature.pattern.anchor.2 := by
  rw [candidatesAt_eq hgrp]
  cases input[start + group.1]? with
  | none => simp
  | some byte =>
    simp only [mem_map, mem_filter, decide_eq_true_eq, Prod.exists, exists_eq_right,
      mem_zipIdx_iff_getElem?, Prod.ext_iff, Option.some.injEq, eq_comm (a := byte)]

/-- The candidates at a start are the signatures whose anchor shows there. -/
theorem mem_startCandidates {start candidate : Nat} :
    candidate ∈ catalog.anchorGroups.toList.flatMap (candidatesAt input start) ↔
      ∃ signature, catalog.signatures[candidate]? = some signature ∧
        input[start + signature.pattern.anchor.1]? = some signature.pattern.anchor.2 := by
  rw [mem_flatMap]
  constructor
  · rintro ⟨group, hgrp, hcand⟩
    obtain ⟨signature, hget, hoffset, hbyte⟩ := (mem_candidatesAt hgrp).mp hcand
    exact ⟨signature, hget, by rw [hoffset, hbyte]⟩
  · rintro ⟨signature, hget, hbyte⟩
    -- The signature is indexed, so its anchor has a group.
    have hind : candidate ∈ lookupAnchor catalog.anchorGroups signature.pattern.anchor.1
        signature.pattern.anchor.2 := by
      rw [catalog.anchorGroups_eq, lookup_indexAnchors]
      refine mem_map.mpr ⟨(signature, candidate), mem_filter.mpr ⟨?_, by simp⟩, rfl⟩
      exact mem_zipIdx_iff_getElem?.mpr hget
    cases hgrp : catalog.anchorGroups[signature.pattern.anchor.1]? with
    | none => simp [lookupAnchor, hgrp] at hind
    | some byByte =>
      have hmem : (signature.pattern.anchor.1, byByte) ∈ catalog.anchorGroups.toList :=
        mem_toList.mpr hgrp
      exact ⟨_, hmem, (mem_candidatesAt hmem).mpr ⟨signature, hget, rfl, hbyte⟩⟩

/-- Every candidate is tried once. -/
theorem candidates_nodup (start : Nat) :
    (catalog.anchorGroups.toList.flatMap (candidatesAt input start)).Nodup := by
  rw [nodup_flatMap]
  refine ⟨fun group hgrp => ?_, ?_⟩
  · rw [candidatesAt_eq hgrp]
    cases input[start + group.1]? with
    | none => exact nodup_nil
    | some byte =>
      exact (List.Nodup.sublist (filter_sublist.map _) (nodup_zipIdx_map_snd _))
  · refine (pairwise_map.mp (keys_nodup catalog.anchorGroups)).imp_of_mem ?_
    intro left right hleft hright hne
    rw [Function.onFun, disjoint_left]
    intro candidate hmem hmem'
    obtain ⟨signature, hget, hoffset, -⟩ := (mem_candidatesAt hleft).mp hmem
    obtain ⟨other, hget', hoffset', -⟩ := (mem_candidatesAt hright).mp hmem'
    rw [hget, Option.some.injEq] at hget'
    exact hne (hoffset.symm.trans (hget' ▸ hoffset'))

theorem foundAt_eq (start : Nat) : foundAt catalog input start =
    (catalog.anchorGroups.toList.flatMap (candidatesAt input start)).flatMap
      (foundBy catalog input start) := by
  unfold foundAt foundIn
  rw [flatMap_assoc]

/-- **One start, by brute force.** The matcher finds the signatures whose
pattern occurs at the start. -/
theorem mem_foundAt (hsm : input.length ≤ u64Max) {start : Nat} :
    o ∈ foundAt catalog input start ↔ ∃ signature ∈ catalog.signatures,
      signature.pattern.OccursAt input start ∧ o = observationOf start signature := by
  rw [foundAt_eq]
  simp only [mem_flatMap (b := o), mem_startCandidates, mem_foundBy]
  constructor
  · rintro ⟨candidate, -, signature, hget, hmats, rfl⟩
    exact ⟨signature, mem_of_getElem? hget, (ArtifactPattern.matchesAt_iff hsm).mp hmats, rfl⟩
  · rintro ⟨signature, hmem, hoccurs, rfl⟩
    obtain ⟨candidate, hget⟩ := mem_iff_getElem?.mp hmem
    exact ⟨candidate, ⟨signature, hget, hoccurs.anchor⟩, signature, hget,
      (ArtifactPattern.matchesAt_iff hsm).mpr hoccurs, rfl⟩

theorem mem_foundBefore (hsm : input.length ≤ u64Max) {frontier : Nat} :
    o ∈ foundBefore catalog input frontier ↔ ∃ start < frontier, ∃ signature ∈ catalog.signatures,
      signature.pattern.OccursAt input start ∧ o = observationOf start signature := by
  unfold foundBefore
  simp only [mem_flatMap, mem_range, mem_foundAt hsm]

/-- The offset and the signature of an observation. -/
def ArtifactMatchObservation.key (o : ArtifactMatchObservation) : Nat × ArtifactSignatureRef :=
  (o.absoluteOffset, o.signature)

theorem foundAt_offset {start : Nat} (h : o ∈ foundAt catalog input start) :
    o.absoluteOffset = start := by
  rw [foundAt_eq] at h
  obtain ⟨candidate, -, ho⟩ := mem_flatMap.mp h
  obtain ⟨signature, -, -, rfl⟩ := mem_foundBy.mp ho
  rfl

theorem foundAt_nodup (hrefs : (catalog.signatures.map (·.signatureRef)).Nodup) (start : Nat) :
    ((foundAt catalog input start).map (·.key)).Nodup := by
  rw [foundAt_eq, map_flatMap, nodup_flatMap]
  refine ⟨fun candidate _ => ?_, (candidates_nodup start).imp fun {left right} hne => ?_⟩
  · unfold foundBy
    cases catalog.signatures[candidate]? with
    | none => exact nodup_nil
    | some signature => by_cases h : signature.pattern.matchesAt input start = true <;> simp [h]
  · rw [Function.onFun, disjoint_left]
    intro key hmem hmem'
    obtain ⟨o, ho, rfl⟩ := mem_map.mp hmem
    obtain ⟨o', ho', hkey⟩ := mem_map.mp hmem'
    obtain ⟨signature, hget, -, rfl⟩ := mem_foundBy.mp ho
    obtain ⟨other, hget', -, rfl⟩ := mem_foundBy.mp ho'
    have hrefs_eq : other.signatureRef = signature.signatureRef := congrArg Prod.snd hkey
    have hlt : left < (catalog.signatures.map (·.signatureRef)).length := by
      rw [length_map]
      exact (List.getElem?_eq_some_iff.mp hget).1
    refine hne ((getElem?_inj hlt hrefs).mp ?_)
    rw [getElem?_map, getElem?_map, hget, hget', Option.map_some, Option.map_some, hrefs_eq]

/-- Nothing is found twice. -/
theorem foundBefore_nodup (hrefs : (catalog.signatures.map (·.signatureRef)).Nodup)
    (frontier : Nat) : ((foundBefore catalog input frontier).map (·.key)).Nodup := by
  unfold foundBefore
  rw [map_flatMap, nodup_flatMap]
  refine ⟨fun start _ => foundAt_nodup hrefs start, nodup_range.imp fun {left right} hne => ?_⟩
  rw [Function.onFun, disjoint_left]
  intro key hmem hmem'
  obtain ⟨o, ho, rfl⟩ := mem_map.mp hmem
  obtain ⟨o', ho', hkey⟩ := mem_map.mp hmem'
  apply hne
  rw [← foundAt_offset ho, ← foundAt_offset ho']
  exact (congrArg Prod.fst hkey).symm

end Found

/-! ### The matcher collects them -/

section Collects

variable {scanner : ArtifactScanner} {input : Bytes} {progress : ScanProgress}

/-- A turn appends what `g` says, or stops after a part of it; the frontier
stays. -/
def Appends (found : List ArtifactMatchObservation) (before : ScanProgress) :
    Option ScanStop → ScanProgress → Prop
  | none, after => after.observations = before.observations ++ found ∧
      after.matchStartPositionsChecked = before.matchStartPositionsChecked
  | some _, after => (∃ part, part <+: found ∧ after.observations = before.observations ++ part) ∧
      after.matchStartPositionsChecked = before.matchStartPositionsChecked

/-- A loop of turns that append appends all of them, or stops after a part. -/
theorem untilStop_appends {γ : Type} {f : γ → Scan (Option ScanStop)}
    {g : γ → List ArtifactMatchObservation}
    (hturn : ∀ x p, wp (f x) (Appends (g x) p) (fun _ _ => True) True p) (xs : List γ) :
    wp (untilStop f xs) (Appends (xs.flatMap g) progress) (fun _ _ => True) True progress := by
  induction xs generalizing progress with
  | nil => exact ⟨by simp, rfl⟩
  | cons x xs ih =>
    rw [untilStop, wp_bind, flatMap_cons]
    refine wp_mono (hturn x progress) (fun stop after haft => ?_) (fun _ _ _ => trivial) id
    cases stop with
    | some stop =>
      obtain ⟨⟨part, hpart, hobs⟩, hfron⟩ := haft
      exact ⟨⟨part, hpart.trans (prefix_append _ _), hobs⟩, hfron⟩
    | none =>
      obtain ⟨hobs, hfron⟩ := haft
      refine wp_mono ih (fun stop last hlast => ?_) (fun _ _ _ => trivial) id
      cases stop with
      | some stop =>
        obtain ⟨⟨part, hpart, hpart_eq⟩, hlast_frontier⟩ := hlast
        refine ⟨⟨g x ++ part, (prefix_append_right_inj _).mpr hpart, ?_⟩,
          hlast_frontier.trans hfron⟩
        rw [hpart_eq, hobs, append_assoc]
      | none =>
        refine ⟨?_, hlast.2.trans hfron⟩
        rw [hlast.1, hobs, append_assoc]

theorem chargeMatchWork_frame : wp (chargeMatchWork scanner) (fun _ after =>
      after.observations = progress.observations ∧
        after.matchStartPositionsChecked = progress.matchStartPositionsChecked)
    (fun _ _ => True) True progress := by
  simp only [chargeMatchWork, wp_rules]
  exact ⟨fun _ => ⟨trivial, trivial⟩, fun _ => ⟨trivial, trivial⟩⟩

theorem verifyCandidate_appends (start candidate : Nat) :
    wp (verifyCandidate scanner input 0 start candidate)
      (Appends (foundBy scanner.catalog input start candidate) progress) (fun _ _ => True) True
      progress := by
  have hnoth : ∀ {stop : Option ScanStop} {found : List ArtifactMatchObservation}
      {after : ScanProgress}, (stop = none → found = []) →
      after.observations = progress.observations ∧
        after.matchStartPositionsChecked = progress.matchStartPositionsChecked →
      Appends found progress stop after := by
    intro stop found after hfnd haft
    cases stop with
    | none => exact ⟨by rw [hfnd rfl, append_nil, haft.1], haft.2⟩
    | some stop => exact ⟨⟨[], nil_prefix, by rw [append_nil, haft.1]⟩, haft.2⟩
  simp only [verifyCandidate, wp_bind]
  refine wp_mono chargeMatchWork_frame (fun charged after haft => ?_) (fun _ _ _ => trivial) id
  cases hget : scanner.catalog.signatures[candidate]? with
  | none =>
    simp only [signatureAt, hget, wp_rules]
    exact ⟨fun _ => hnoth (fun h => by cases h) haft, fun _ => trivial⟩
  | some signature =>
    simp only [signatureAt, hget, wp_rules, addOffset, new,
      Checked.wp_rules, checkedAdd_eq_some, implies_true, and_true]
    refine ⟨fun _ => hnoth (fun h => by cases h) haft, fun _ => ⟨fun hno => ?_, fun hyes =>
      ⟨fun _ => hnoth (fun h => by cases h) haft, ?_⟩⟩⟩
    · refine hnoth (fun _ => ?_) haft
      unfold foundBy
      simp only [hget]
      rw [if_neg (by simpa using hno)]
    · rintro _ absoluteStart ⟨-, rfl⟩ -
      refine ⟨?_, haft.2⟩
      have hmats : signature.pattern.matchesAt input start = true := by simpa using hyes
      unfold foundBy
      simp only [hget, if_pos hmats, haft.1, Nat.zero_add]
      rfl

theorem probeAnchor_appends (start : Nat) (group : Nat × BTreeMap UInt8 (List Nat)) :
    wp (probeAnchor scanner input 0 start group)
      (Appends (foundIn scanner.catalog input start group) progress) (fun _ _ => True) True
      progress := by
  simp only [probeAnchor, wp_bind]
  refine wp_mono chargeMatchWork_frame (fun charged after haft => ?_) (fun _ _ _ => trivial) id
  simp only [wp_rules, addOffset, Checked.wp_okOr, checkedAdd_eq_some, implies_true, and_true]
  have hnoth : foundIn scanner.catalog input start group = [] →
      Appends (foundIn scanner.catalog input start group) progress none after := by
    intro hfnd
    exact ⟨by rw [hfnd, append_nil, haft.1], haft.2⟩
  refine ⟨fun _ => ⟨⟨[], nil_prefix, by rw [append_nil, haft.1]⟩, haft.2⟩, ?_⟩
  rintro - anchorIndex ⟨-, rfl⟩
  cases hbyte : input[start + group.1]? with
  | none => exact hnoth (by simp [foundIn, candidatesAt, hbyte])
  | some byte =>
    simp only
    cases hcands : group.2[byte]? with
    | none => exact hnoth (by simp [foundIn, candidatesAt, hbyte, hcands])
    | some candidates =>
      have hfnd : foundIn scanner.catalog input start group =
          candidates.flatMap (foundBy scanner.catalog input start) := by
        simp [foundIn, candidatesAt, hbyte, hcands]
      rw [hfnd]
      refine wp_mono (untilStop_appends (fun candidate p => verifyCandidate_appends start candidate)
        candidates) (fun stop last hlast => ?_) (fun _ _ _ => trivial) id
      cases stop with
      | none => exact ⟨haft.1 ▸ hlast.1, hlast.2.trans haft.2⟩
      | some stop => exact ⟨haft.1 ▸ hlast.1, hlast.2.trans haft.2⟩

/-- The observations are those of the starts before the frontier, and some of
the next start's. -/
structure Collected (catalog : ArtifactCatalog) (input : Bytes) (progress : ScanProgress) :
    Prop where
  all : foundBefore catalog input progress.matchStartPositionsChecked <+: progress.observations
  some : progress.observations <+:
    foundBefore catalog input (progress.matchStartPositionsChecked + 1)

/-- The scan of the starts before `starts` has all they add, or was stopped. -/
def Gathered (catalog : ArtifactCatalog) (input : Bytes) (starts : Nat) :
    Option ScanStop → ScanProgress → Prop
  | none, after => after.matchStartPositionsChecked = starts ∧
      after.observations = foundBefore catalog input starts
  | some _, after => Collected catalog input after

theorem scanStart_gathers {start : Nat} (hfron : progress.matchStartPositionsChecked = start)
    (hbef : progress.observations = foundBefore scanner.catalog input start) :
    wp (scanStart scanner input 0 start) (Gathered scanner.catalog input (start + 1))
      (fun _ _ => True) True progress := by
  simp only [scanStart, wp_bind]
  refine wp_mono (untilStop_appends (fun group p => probeAnchor_appends start group)
    scanner.catalog.anchorGroups.toList) (fun stop after haft => ?_) (fun _ _ _ => trivial) id
  cases stop with
  | none =>
    simp only [unlessStopped, advanceFrontier, wp_rules, addOffset, Checked.wp_okOr,
      checkedAdd_eq_some, implies_true, and_true]
    rintro absoluteStart ⟨-, rfl⟩ checked ⟨-, rfl⟩
    refine ⟨by rw [Nat.zero_add], ?_⟩
    rw [haft.1, hbef, foundBefore_succ]
    rfl
  | some stop =>
    obtain ⟨⟨part, hpart, hobs⟩, hsame⟩ := haft
    have hchec : after.matchStartPositionsChecked = start := hsame.trans hfron
    refine { all := ?_, some := ?_ }
    · rw [hchec, hobs, hbef]
      exact prefix_append _ _
    · rw [hchec, hobs, hbef, foundBefore_succ]
      exact (prefix_append_right_inj _).mpr hpart

/-- **The matcher collects what brute force finds.** Start by start, the scan
has all that the starts before its frontier add. -/
theorem scanStarts_gathers (scanner : ArtifactScanner) (input : Bytes) (starts : Nat) :
    wp (scanStarts scanner input 0 starts) (Gathered scanner.catalog input starts)
      (fun _ _ => True) True {} := by
  induction starts with
  | zero => exact ⟨rfl, rfl⟩
  | succ start ih =>
    unfold scanStarts at ih ⊢
    rw [range_succ, untilStop_append, wp_bind]
    refine wp_mono ih (fun stop after haft => ?_) (fun _ _ _ => trivial) id
    cases stop with
    | some stop => exact haft
    | none =>
      simp only [unlessStopped, untilStop, wp_bind]
      refine wp_mono (scanStart_gathers haft.1 haft.2) (fun stop last hlast => ?_)
        (fun _ _ _ => trivial) id
      cases stop with
      | none => exact hlast
      | some stop => exact hlast

theorem Gathered.collected {catalog : ArtifactCatalog} {starts : Nat} {stop : Option ScanStop}
    (h : Gathered catalog input starts stop progress) : Collected catalog input progress := by
  cases stop with
  | some stop => exact h
  | none =>
    obtain ⟨hfron, hobs⟩ := h
    refine { all := ?_, some := ?_ }
    · rw [hfron, hobs]
    · rw [hfron, hobs, foundBefore_succ]
      exact prefix_append _ _

end Collects

/-! ### The order of a report -/

/-- The order by offset, then by signature. -/
def Before (left right : ArtifactMatchObservation) : Prop :=
  left.absoluteOffset < right.absoluteOffset ∨
    (left.absoluteOffset = right.absoluteOffset ∧ compare left.signature right.signature = .lt)

/-- The observations of a signature at an offset. -/
def observationsOf (report : ArtifactScanReport) (offset : Nat) (ref : ArtifactSignatureRef) : Nat :=
  report.matchesFound.countP fun o => o.key = (offset, ref)

section Numbered

variable {found : List ArtifactMatchObservation}

theorem le_trans_observation (a b c : ArtifactMatchObservation)
    (hab : le a b = true) (hbc : le b c = true) :
    le a c = true := by
  unfold le at *
  exact Std.TransCmp.isLE_trans hab hbc

theorem le_total_observation (a b : ArtifactMatchObservation) :
    (le a b || le b a) = true := by
  unfold le
  rw [Bool.or_eq_true]
  refine (em _).imp_right fun hnot => ?_
  rw [Std.OrientedCmp.lt_of_not_isLE hnot]
  rfl

/-- The order of the report, where no two observations have one offset and one
signature. -/
theorem before_of_le {left right : ArtifactMatchObservation}
    (hle : le left right = true) (hne : left.key ≠ right.key) :
    Before left right := by
  unfold le at hle
  simp only [compareLex, compareOn, Ordering.isLE_then_iff_and, Nat.isLE_compare,
    Nat.compare_eq_lt] at hle
  obtain ⟨hoffset, hrest⟩ := hle
  rcases hoffset.lt_or_eq with hlt | heq
  · exact Or.inl hlt
  · refine Or.inr ⟨heq, ?_⟩
    have hsig : (compare left.signature right.signature).isLE = true := by
      rcases hrest with hlt | hrest
      · exact absurd heq hlt.ne
      · exact hrest.1
    cases hcom : compare left.signature right.signature with
    | lt => rfl
    | eq => exact absurd (Prod.ext heq (Std.LawfulEqOrd.compare_eq_iff_eq.mp hcom)) hne
    | gt => simp [hcom] at hsig

/-- Numbering forgets nothing of a list but its order. -/
theorem numbered_key : (numbered found).map (·.key) = (found.mergeSort le).map (·.key) := by
  unfold numbered
  rw [map_map]
  nth_rewrite 2 [← zipIdx_map_fst 0 (found.mergeSort le)]
  rw [map_map]
  rfl

theorem numbered_before (h : (found.map (·.key)).Nodup) : (numbered found).Pairwise Before := by
  have hsort : (found.mergeSort le).Pairwise Before := by
    have hkeys : ((found.mergeSort le).map (·.key)).Nodup :=
      ((mergeSort_perm _ _).map _).nodup_iff.mpr h
    refine (List.Pairwise.and (pairwise_mergeSort le_trans_observation le_total_observation found)
      (pairwise_map.mp hkeys)).imp fun hboth => ?_
    exact before_of_le hboth.1 hboth.2
  unfold numbered
  rw [pairwise_map]
  rw [← zipIdx_map_fst 0 (found.mergeSort le), pairwise_map] at hsort
  exact hsort

theorem countP_numbered (key : Nat × ArtifactSignatureRef) :
    ((numbered found).countP fun o => o.key = key) = (found.map (·.key)).count key := by
  have hkeys : (numbered found).countP (fun o => o.key = key) =
      ((numbered found).map (·.key)).count key := by
    rw [count, countP_map]
    exact countP_congr fun o _ => by simp
  rw [hkeys, numbered_key]
  exact ((mergeSort_perm _ _).map _).count_eq key

/-- An observation of the report is one that was found, with its number. -/
theorem mem_numbered {o : ArtifactMatchObservation} (h : o ∈ numbered found) :
    ∃ o' ∈ found, ∃ ordinal, o = { o' with ordinal } := by
  obtain ⟨⟨o', index⟩, hmem, rfl⟩ := mem_map.mp h
  have hsort : o' ∈ found.mergeSort le :=
    (mem_zipIdx' hmem).2 ▸ getElem_mem _
  exact ⟨o', (mergeSort_perm _ _).mem_iff.mp hsort, index + 1, rfl⟩

end Numbered

/-! ### The report of the slice -/

section Report

variable {catalog : ArtifactCatalog} {input : Bytes} {progress : ScanProgress}

theorem Collected.keys_nodup (h : Collected catalog input progress)
    (hrefs : (catalog.signatures.map (·.signatureRef)).Nodup) :
    (progress.observations.map (·.key)).Nodup :=
  (foundBefore_nodup hrefs _).sublist (h.some.sublist.map _)

/-- What was collected occurs. -/
theorem Collected.sound (h : Collected catalog input progress)
    (hsm : input.length ≤ u64Max) {o : ArtifactMatchObservation} (ho : o ∈ progress.observations) :
    ∃ start, ∃ signature ∈ catalog.signatures, signature.pattern.OccursAt input start ∧
      o = observationOf start signature := by
  obtain ⟨start, -, hfnd⟩ := (mem_foundBefore hsm).mp (h.some.subset ho)
  exact ⟨start, hfnd⟩

variable {signature : ArtifactCatalogSignature}

/-- What occurs before the frontier was collected. -/
theorem Collected.exact (h : Collected catalog input progress)
    (hsm : input.length ≤ u64Max) {start : Nat}
    (hsta : start < progress.matchStartPositionsChecked) (hmem : signature ∈ catalog.signatures)
    (hoccurs : signature.pattern.OccursAt input start) :
    observationOf start signature ∈ progress.observations :=
  h.all.subset ((mem_foundBefore hsm).mpr ⟨start, hsta, signature, hmem, hoccurs, rfl⟩)

/-- The slice scan returns a report of what it collected in the prefix the
limits allow. -/
theorem scanBytes_collected (sha256 : Bytes → String) (scanner : ArtifactScanner)
    (input : Bytes) : ∃ report stop progress, scanBytes sha256 scanner input () = .ok report () ∧
      Shows progress (stop.elim (bytesEnd scanner input) completionForStop) report ∧
      Gathered scanner.catalog (boundedInput scanner input) (boundedInput scanner input).length stop
        progress := by
  obtain ⟨stop, progress, checked, hall, hwith, hchec, hnone⟩ := scanned_all scanner input
  obtain ⟨report, hreport, hshw⟩ := exists_report sha256 stop (bytesEnd scanner input) hwith
    hchec hnone (boundedInput scanner input)
  have hgat := scanStarts_gathers scanner (boundedInput scanner input)
    (boundedInput scanner input).length
  rw [wp_of_eq_ok hall] at hgat
  exact ⟨report, stop, progress, scanBytes_eq hall hreport, hshw, hgat⟩

theorem boundedInput_eq (scanner : ArtifactScanner) (input : Bytes) :
    boundedInput scanner input = input.take scanner.limits.maxInputBytes := by
  unfold boundedInput
  rw [← take_take, take_length]

/-- A signature is observed once at an offset if and only if it was found there. -/
theorem observationsOf_eq {completion : ArtifactScanCompletion} {report : ArtifactScanReport}
    (hshw : Shows progress completion report) (hkeys : (progress.observations.map (·.key)).Nodup)
    (offset : Nat) (ref : ArtifactSignatureRef) : observationsOf report offset ref =
      if (offset, ref) ∈ progress.observations.map (·.key) then 1 else 0 := by
  unfold observationsOf
  rw [hshw.matches_eq, countP_numbered]
  split_ifs with hmem
  · exact count_eq_one_of_mem hkeys hmem
  · exact count_eq_zero_of_not_mem hmem

/-- Brute force on the scanned prefix: a signature was found at an offset only
if its pattern occurs there. -/
theorem Collected.occurs_of_key (h : Collected catalog input progress)
    (hrefs : (catalog.signatures.map (·.signatureRef)).Nodup)
    (hsm : input.length ≤ u64Max) {offset : Nat} (hmem : signature ∈ catalog.signatures)
    (hkey : (offset, signature.signatureRef) ∈ progress.observations.map (·.key)) :
    signature.pattern.OccursAt input offset := by
  obtain ⟨o, ho, hkey⟩ := mem_map.mp hkey
  obtain ⟨start, other, hoth, hoccurs, rfl⟩ := h.sound hsm ho
  obtain ⟨rfl, href⟩ := Prod.mk.inj hkey
  rwa [inj_on_of_nodup_map hrefs hoth hmem href] at hoccurs

theorem Collected.key_of_occurs (h : Collected catalog input progress)
    (hsm : input.length ≤ u64Max) {offset : Nat}
    (hoffset : offset < progress.matchStartPositionsChecked)
    (hmem : signature ∈ catalog.signatures)
    (hoccurs : signature.pattern.OccursAt input offset) :
    (offset, signature.signatureRef) ∈ progress.observations.map (·.key) :=
  mem_map.mpr ⟨_, h.exact hsm hoffset hmem hoccurs, rfl⟩

end Report

/-- **The indexed scan agrees with brute force.** For every catalog that
`register` and `seal` build and every input, `scan_bytes` returns a report in
the order of offsets and signatures. It holds no observation of a pattern that
does not occur in the scanned prefix, hence in the input, and exactly one of
every pattern that occurs in it before the frontier. A complete report holds
exactly one observation of each pattern at each offset at which it occurs in
the input, and no other. -/
theorem scanBytes_brute_force (sha256 : Bytes → String)
    (digestCatalog : BTreeMap ArtifactPackId ArtifactSignaturePack → String)
    {builder : ArtifactCatalogBuilder} {catalog : ArtifactCatalog} (limits : ArtifactScanLimits)
    (input : Bytes) (hbuilt : ArtifactCatalogBuilder.Built builder)
    (hsealed : builder.sealCatalog digestCatalog = .ok catalog) :
    ∃ report, scanBytes sha256 { catalog, limits } input () = .ok report () ∧
      report.matchesFound.Pairwise Before ∧
      (∀ o ∈ report.matchesFound, ∃ signature ∈ catalog.signatures,
        o.signature = signature.signatureRef ∧ o.patternLength = signature.pattern.len ∧
        o.observationClass = signature.observationClass ∧
        signature.pattern.OccursAt (input.take limits.maxInputBytes) o.absoluteOffset ∧
        signature.pattern.OccursAt input o.absoluteOffset) ∧
      (∀ offset < report.matchStartPositionsChecked, ∀ signature ∈ catalog.signatures,
        signature.pattern.OccursAt (input.take limits.maxInputBytes) offset →
        observationsOf report offset signature.signatureRef = 1) ∧
      (report.completion = .complete → ∀ offset, ∀ signature ∈ catalog.signatures,
        observationsOf report offset signature.signatureRef ≤ 1 ∧
        (observationsOf report offset signature.signatureRef = 1 ↔
          signature.pattern.OccursAt input offset)) := by
  have hrefs := ArtifactCatalogBuilder.sealed_refs_nodup hbuilt hsealed
  obtain ⟨report, stop, progress, hreport, hshw, hgath⟩ :=
    scanBytes_collected sha256 { catalog, limits } input
  have hsm := le_trans (boundedInput_le { catalog, limits } input)
    (show maxInputBytes ≤ u64Max by decide)
  have hcoll := hgath.collected
  have hkeys := hcoll.keys_nodup hrefs
  have hcnt := observationsOf_eq hshw hkeys
  rw [boundedInput_eq] at hsm
  simp only [boundedInput_eq] at hcoll hgath
  refine ⟨report, hreport, ?_, fun o ho => ?_, fun offset hoffset signature hmem hoccurs => ?_,
    fun hcomp offset signature hmem => ?_⟩
  · rw [hshw.matches_eq]
    exact numbered_before hkeys
  · rw [hshw.matches_eq] at ho
    obtain ⟨o', ho', ordinal, rfl⟩ := mem_numbered ho
    obtain ⟨start, signature, hmem, hoccurs, rfl⟩ := hcoll.sound hsm ho'
    exact ⟨signature, hmem, rfl, rfl, rfl, hoccurs, hoccurs.of_take⟩
  · rw [hshw.frontier_eq] at hoffset
    rw [hcnt, if_pos (hcoll.key_of_occurs hsm hoffset hmem hoccurs)]
  · -- Nothing stopped the matcher, and the prefix is the whole input.
    rw [hshw.completion_eq] at hcomp
    have hnone : stop = none ∧ bytesEnd { catalog, limits } input = .complete := by
      cases stop with
      | none => exact ⟨rfl, hcomp⟩
      | some stop => cases stop <;> simp [completionForStop] at hcomp
    have hwh : input.take limits.maxInputBytes = input := by
      have hend := hnone.2
      unfold bytesEnd at hend
      rw [boundedInput_length] at hend
      split_ifs at hend with hlong
      exact List.take_of_length_le (by simp only at hlong; omega)
    obtain ⟨rfl, -⟩ := hnone
    rw [hwh] at hcoll hgath hsm
    rw [hcnt]
    have hiff : (offset, signature.signatureRef) ∈ progress.observations.map (·.key) ↔
        signature.pattern.OccursAt input offset := by
      refine ⟨hcoll.occurs_of_key hrefs hsm hmem, fun hoccurs => ?_⟩
      refine hcoll.key_of_occurs hsm ?_ hmem hoccurs
      have hend := hoccurs.end_le
      have hpos := signature.pattern.len_pos
      rw [hgath.1]
      omega
    split_ifs with h
    · exact ⟨le_rfl, by simpa using hiff.mp h⟩
    · exact ⟨Nat.zero_le _, by simpa using mt hiff.mpr h⟩

/-! ### A scan of three bytes -/

/-- A pack of one signature: two bytes `A`. -/
def overlapPack : ArtifactSignaturePack where
  id := overlapRef.packId
  revision := overlapRef.revision
  title := "Lab"
  summary := "Overlapping bytes"
  signatures := [
    { id := overlapRef.signatureId, revision := overlapRef.revision, label := "AA"
      observationClass := .testCanary, pattern := overlapPattern, tags := ∅, description := none }]
  distinct := nodup_singleton _

def overlapBuilder : ArtifactCatalogBuilder where
  packs := (∅ : BTreeMap ArtifactPackId ArtifactSignaturePack).insert overlapPack.id overlapPack
  semanticPatterns := (∅ : BTreeMap String ArtifactSignatureRef).insert overlapPattern.canonical
    overlapRef
  signatureCount := 1
  compiledPatternBytes := 2

theorem overlapBuilder_built : ArtifactCatalogBuilder.Built overlapBuilder :=
  .register .new (show ArtifactCatalogBuilder.register {} overlapPack = .ok overlapBuilder from rfl)

def overlapSignature : ArtifactCatalogSignature :=
  { signatureRef := overlapRef, observationClass := .testCanary, pattern := overlapPattern }

def overlapCatalog : ArtifactCatalog := .ofSignatures [overlapSignature] "artifact-catalog-sha256:00"

theorem overlapBuilder_sealed :
    overlapBuilder.sealCatalog (fun _ => "artifact-catalog-sha256:00") = .ok overlapCatalog := by
  have hcoll : overlapBuilder.collected = [overlapSignature] := by rfl
  unfold ArtifactCatalogBuilder.sealCatalog
  rw [hcoll, mergeSort_singleton]
  rfl

/-- Limits of at most `n` bytes. -/
def bytesUpTo (n : Nat) (h : 0 < n ∧ n ≤ maxInputBytes) : ArtifactScanLimits :=
  { overlapScanner.limits with
    maxInputBytes := n, maxMatches := 4, inputBytes_checked := h, matches_checked := by decide }

theorem overlap_occurs : overlapPattern.OccursAt [0x41, 0x41, 0x41] 1 :=
  (ArtifactPattern.matchesAt_iff (by decide)).mp (by decide)

/-- Below the limit, the one occurrence is observed. -/
theorem scanBytes_brute_force_overlap : ∃ report,
    scanBytes (fun _ => "00") { catalog := overlapCatalog, limits := bytesUpTo 8 (by decide) }
      [0x00, 0x41, 0x41] () = .ok report () ∧
    observationsOf report 1 overlapSignature.signatureRef = 1 := by
  obtain ⟨report, hreport, -, -, -, hcomp⟩ := scanBytes_brute_force (fun _ => "00") _
    (bytesUpTo 8 (by decide)) [0x00, 0x41, 0x41] overlapBuilder_built overlapBuilder_sealed
  have hcompl : (match scanBytes (fun _ => "00")
      { catalog := overlapCatalog, limits := bytesUpTo 8 (by decide) } [0x00, 0x41, 0x41] () with
      | .ok report _ => some report.completion
      | _ => none) = some .complete := by decide +kernel
  rw [hreport, Option.some.injEq] at hcompl
  refine ⟨report, hreport, ?_⟩
  exact ((hcomp hcompl 1 overlapSignature List.mem_cons_self).2).mpr
    ((ArtifactPattern.matchesAt_iff (by decide)).mp (by decide))

/-- Three bytes under a limit of two: the pattern occurs at offset one of the
input, which was checked as a start, and is not observed there. -/
theorem occurrence_across_limit_not_observed : ∃ report,
    scanBytes (fun _ => "00") { catalog := overlapCatalog, limits := bytesUpTo 2 (by decide) }
      [0x41, 0x41, 0x41] () = .ok report () ∧
    ArtifactCatalogBuilder.Built overlapBuilder ∧
    overlapBuilder.sealCatalog (fun _ => "artifact-catalog-sha256:00") = .ok overlapCatalog ∧
    report.completion = .inputLimitReached ∧ 1 < report.matchStartPositionsChecked ∧
    overlapSignature ∈ overlapCatalog.signatures ∧
    overlapSignature.pattern.OccursAt [0x41, 0x41, 0x41] 1 ∧
    observationsOf report 1 overlapSignature.signatureRef = 0 := by
  have hrun : (match scanBytes (fun _ => "00")
      { catalog := overlapCatalog, limits := bytesUpTo 2 (by decide) } [0x41, 0x41, 0x41] () with
      | .ok report _ => some (report.completion, report.matchStartPositionsChecked,
          observationsOf report 1 overlapSignature.signatureRef)
      | _ => none) = some (.inputLimitReached, 2, 0) := by decide +kernel
  split at hrun
  · rename_i report _ hreport
    simp only [Option.some.injEq, Prod.mk.injEq] at hrun
    exact ⟨report, hreport, overlapBuilder_built, overlapBuilder_sealed, hrun.1,
      by rw [hrun.2.1]; decide, List.mem_cons_self, overlap_occurs, hrun.2.2⟩
  · cases hrun

end Termivar
