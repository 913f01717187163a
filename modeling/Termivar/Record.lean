/-
# Decoding records

A record is written as a list of named values, with some fields skipped, and is
read entry by entry: each entry fills the slot of its field, a slot is filled
once, and an entry under no known name is refused or passed over. What was
written is read back (`collect_encode`), and if one field is deleted, or a
field is deleted inside of one value, then reading fails, or the slots are as
before, or one slot stays empty (`collect_dropped`).
-/
import Termivar.Command

namespace Termivar.Record

open List Function

variable {ι R ε : Type} {T : ι → Type}

/-- The fields of a record read so far. -/
abbrev Slots (T : ι → Type) : Type := ∀ i, Option (T i)

/-- The names of the fields of a record and how their values are read. -/
structure Schema (ι R ε : Type) (T : ι → Type) where
  fields : List ι
  name : ι → String
  read : (i : ι) → R → Except ε (T i)
  duplicate : String → ε
  unknown : Option (String → ε)
  nodup : fields.Nodup
  named : ∀ i ∈ fields, (fields.find? fun j => name j = name i) = some i

section Collect

variable [DecidableEq ι]

/-- One entry of a record. -/
def Schema.visit (schema : Schema ι R ε T) (slots : Slots T) (entry : String × R) :
    Except ε (Slots T) :=
  match schema.fields.find? fun i => schema.name i = entry.1 with
  | none =>
    match schema.unknown with
    | some refuse => .error (refuse entry.1)
    | none => .ok slots
  | some i => do
    if (slots i).isSome then throw (schema.duplicate entry.1)
    let value ← schema.read i entry.2
    return update slots i (some value)

/-- All entries of a record. -/
def Schema.collect (schema : Schema ι R ε T) (entries : List (String × R)) : Except ε (Slots T) :=
  entries.foldlM schema.visit fun _ => none

/-- The names of the entries that fill no field. -/
def Schema.extensions (schema : Schema ι R ε T) (entries : List (String × R)) : List String :=
  (entries.map Prod.fst).filter fun name =>
    (schema.fields.find? fun i => schema.name i = name).isNone

end Collect

/-- The entries of a record whose values are given; fields without one are
skipped. -/
def encode (fields : List ι) (name : ι → String) (raw : ι → Option R) : List (String × R) :=
  fields.filterMap fun i => (raw i).map (Prod.mk (name i))

theorem map_encode {S : Type} (f : R → S) (fields : List ι) (name : ι → String)
    (raw : ι → Option R) : (encode fields name raw).map (fun entry => (entry.1, f entry.2)) =
      encode fields name fun i => (raw i).map f := by
  simp [encode, map_filterMap, comp_def]

/-- The slots are what the given values are read as. -/
def Reads (schema : Schema ι R ε T) (raw : ι → Option R) (slots : Slots T) : Prop :=
  ∀ i, (raw i = none ∧ slots i = none) ∨
    i ∈ schema.fields ∧ ∃ r x, raw i = some r ∧ slots i = some x ∧ schema.read i r = .ok x

variable [DecidableEq ι] {schema : Schema ι R ε T} {raw : ι → Option R} {slots : Slots T}
  {i : ι} {drop : R → R → Prop}

/-- One value exchanged, and its slot with it. -/
theorem Reads.update (h : Reads schema raw slots) {r : Option R} {x : Option (T i)}
    (hread : (r = none ∧ x = none) ∨
      i ∈ schema.fields ∧ ∃ r' x', r = some r' ∧ x = some x' ∧ schema.read i r' = .ok x') :
    Reads schema (update raw i r) (update slots i x) := by
  intro j
  by_cases hj : j = i
  · subst hj
    simpa using hread
  · simpa [hj] using h j

theorem visit_eq (hmem : i ∈ schema.fields) (hfree : slots i = none) (r : R) :
    schema.visit slots (schema.name i, r) =
      (schema.read i r).map fun x => update slots i (some x) := by
  simp only [Schema.visit, schema.named i hmem, hfree]
  cases schema.read i r <;> rfl

/-- The fields still to come are filled, the others stay as they are. -/
theorem foldlM_visit (hrd : Reads schema raw slots) : ∀ (fields : List ι) (filled : Slots T),
    fields.Nodup → (∀ i ∈ fields, i ∈ schema.fields ∧ filled i = none) →
    (encode fields schema.name raw).foldlM schema.visit filled =
      .ok fun i => if i ∈ fields then slots i else filled i
  | [], filled, _, _ => by simp [encode, pure, Except.pure]
  | i :: fields, filled, hnd, hfields => by
    obtain ⟨hnot, hnd⟩ := nodup_cons.mp hnd
    obtain ⟨⟨hmem, hfree⟩, hrest⟩ := forall_mem_cons.mp hfields
    obtain ⟨hraw, hslot⟩ | ⟨-, r, x, hraw, hslot, hread⟩ := hrd i
    · have hstep : encode (i :: fields) schema.name raw = encode fields schema.name raw := by
        simp [encode, hraw]
      rw [hstep, foldlM_visit hrd fields filled hnd hrest]
      congr 1
      funext j
      by_cases hj : j = i
      · subst hj
        simp [hslot, hfree]
      · simp [hj]
    · have hstep : encode (i :: fields) schema.name raw =
          (schema.name i, r) :: encode fields schema.name raw := by
        simp [encode, hraw]
      have hfilled : ∀ j ∈ fields, j ∈ schema.fields ∧ update filled i (some x) j = none := by
        intro j hj
        have hne : j ≠ i := fun h => hnot (h ▸ hj)
        simpa [hne] using hrest j hj
      rw [hstep, foldlM_cons, visit_eq hmem hfree, hread]
      refine (foldlM_visit hrd fields _ hnd hfilled).trans ?_
      congr 1
      funext j
      by_cases hj : j = i
      · subst hj
        simp [hslot, hnot]
      · simp [hj]

/-- What was written is read back. -/
theorem collect_encode (hrd : Reads schema raw slots) :
    schema.collect (encode schema.fields schema.name raw) = .ok slots := by
  rw [Schema.collect, foldlM_visit hrd _ _ schema.nodup fun i hi => ⟨hi, rfl⟩]
  congr 1
  funext i
  by_cases hi : i ∈ schema.fields
  · simp [hi]
  · obtain ⟨-, hslot⟩ | ⟨hmem, -⟩ := hrd i
    · simp [hi, hslot]
    · exact absurd hmem hi

/-- A filled slot was filled from an entry. -/
theorem foldlM_visit_mem {i : ι} {x : T i} : ∀ (entries : List (String × R)) {filled : Slots T},
    entries.foldlM schema.visit filled = .ok slots → slots i = some x →
    filled i = some x ∨ ∃ entry ∈ entries, schema.read i entry.2 = .ok x
  | [], filled, h, hx => by
    cases h
    exact Or.inl hx
  | entry :: entries, filled, h, hx => by
    rw [foldlM_cons] at h
    obtain ⟨filled', hvis, h⟩ := bind_ok h
    obtain hfilled | ⟨other, hoth, hread⟩ := foldlM_visit_mem entries h hx
    · unfold Schema.visit at hvis
      split at hvis
      · split at hvis <;> cases hvis
        exact Or.inl hfilled
      · rename_i j hj
        split_ifs at hvis
        · cases hvis
        obtain ⟨y, hread, ⟨⟩⟩ := bind_ok hvis
        by_cases hij : i = j
        · subst hij
          rw [update_self] at hfilled
          cases hfilled
          exact Or.inr ⟨entry, by simp, hread⟩
        · rw [update_of_ne hij] at hfilled
          exact Or.inl hfilled
    · exact Or.inr ⟨other, mem_cons_of_mem _ hoth, hread⟩

variable {entries : List (String × R)}

theorem collect_mem {x : T i} (h : schema.collect entries = .ok slots) (hx : slots i = some x) :
    ∃ entry ∈ entries, schema.read i entry.2 = .ok x :=
  (foldlM_visit_mem entries h hx).resolve_left nofun

/-- A value that is not read spoils the record. -/
theorem foldlM_visit_error {i : ι} {r : R} {failure : ε} (hmem : i ∈ schema.fields)
    (hread : schema.read i r = .error failure) : ∀ (entries : List (String × R)) (filled : Slots T),
    (schema.name i, r) ∈ entries → ∃ failure, entries.foldlM schema.visit filled = .error failure
  | entry :: entries, filled, hent => by
    rw [foldlM_cons]
    rcases mem_cons.mp hent with rfl | hent
    · refine Exists.imp (fun failure h => by rw [h]; rfl)
        (show ∃ failure, schema.visit filled (schema.name i, r) = .error failure from ?_)
      simp only [Schema.visit, schema.named i hmem, hread]
      cases (filled i).isSome <;> exact ⟨_, rfl⟩
    · cases schema.visit filled entry with
      | error failure => exact ⟨failure, rfl⟩
      | ok filled' => exact foldlM_visit_error hmem hread entries filled' hent

omit [DecidableEq ι] in
/-- What is written fills fields only, and so does a part of it. -/
theorem extensions_eq_nil (h : ∀ entry ∈ entries, entry ∈ encode schema.fields schema.name raw) :
    schema.extensions entries = [] := by
  refine filter_eq_nil_iff.mpr fun name hname => ?_
  obtain ⟨entry, hent, rfl⟩ := mem_map.mp hname
  obtain ⟨i, hi, hraw⟩ := mem_filterMap.mp (h entry hent)
  obtain ⟨r, -, rfl⟩ := Option.map_eq_some_iff.mp hraw
  simp [schema.named i hi]

/-! ### Deleting a field -/

/-- A list of entries with one entry deleted. -/
inductive Omitted : List (String × R) → List (String × R) → Prop
  | entry (front : List (String × R)) (dropped : String × R) (back : List (String × R)) :
      Omitted (front ++ dropped :: back) (front ++ back)

omit [DecidableEq ι] in
theorem Omitted.mem {entries entries' : List (String × R)} (h : Omitted entries entries') :
    ∀ entry ∈ entries', entry ∈ entries := by
  cases h with
  | entry front dropped back =>
    intro entry hent
    simp only [mem_append, mem_cons] at hent ⊢
    tauto

/-- A list of entries with one entry deleted, or with one value exchanged for
one where something is deleted. -/
inductive DroppedIn (drop : R → R → Prop) : List (String × R) → List (String × R) → Prop
  | entry (front : List (String × R)) (dropped : String × R) (back : List (String × R)) :
      DroppedIn drop (front ++ dropped :: back) (front ++ back)
  | inside (front : List (String × R)) (name : String) {value value' : R}
      (back : List (String × R)) (h : drop value value') :
      DroppedIn drop (front ++ (name, value) :: back) (front ++ (name, value') :: back)

omit [DecidableEq ι] in
theorem not_droppedIn_nil :
    ¬ DroppedIn drop [] entries := by
  intro h
  generalize hnil : ([] : List (String × R)) = all at h
  cases h <;> simp at hnil

omit [DecidableEq ι] in
/-- Something is deleted in the first entry, or after it. -/
theorem droppedIn_cons {name : String} {value : R}
    {rest entries : List (String × R)} (h : DroppedIn drop ((name, value) :: rest) entries) :
    entries = rest ∨ (∃ value', drop value value' ∧ entries = (name, value') :: rest) ∨
      ∃ rest', entries = (name, value) :: rest' ∧ DroppedIn drop rest rest' := by
  generalize hall : (name, value) :: rest = all at h
  cases h with
  | entry front dropped back =>
    cases front with
    | nil =>
      cases hall
      exact Or.inl rfl
    | cons first front =>
      cases hall
      exact Or.inr (Or.inr ⟨front ++ back, rfl, .entry front dropped back⟩)
  | @inside front name value value' back h =>
    cases front with
    | nil =>
      cases hall
      exact Or.inr (Or.inl ⟨value', h, rfl⟩)
    | cons first front =>
      cases hall
      exact Or.inr (Or.inr ⟨_, rfl, .inside front name back h⟩)

omit [DecidableEq ι] in
theorem encode_eq_append {fields : List ι} {name : ι → String} {front back : List (String × R)}
    {entry : String × R} (h : encode fields name raw = front ++ entry :: back) :
    ∃ before i after, fields = before ++ i :: after ∧ raw i = some entry.2 ∧ entry.1 = name i ∧
      front = encode before name raw ∧ back = encode after name raw := by
  obtain ⟨before, rest, rfl, hfr, hrest⟩ := filterMap_eq_append_iff.mp h
  obtain ⟨skipped, i, after, rfl, hskip, hi, hback⟩ := filterMap_eq_cons_iff.mp hrest
  obtain ⟨r, hr, rfl⟩ := Option.map_eq_some_iff.mp hi
  refine ⟨before ++ skipped, i, after, by simp, hr, rfl, ?_, hback.symm⟩
  rw [← hfr, encode, filterMap_append, filterMap_eq_nil_iff.mpr hskip, append_nil]

/-- Other values do not matter where a field is not listed. -/
theorem encode_update_of_not_mem {fields : List ι} (name : ι → String) (raw : ι → Option R)
    (h : i ∉ fields) (r : Option R) :
    encode fields name (update raw i r) = encode fields name raw := by
  refine filterMap_congr fun j hj => ?_
  have hne : j ≠ i := fun heq => h (heq ▸ hj)
  simp [hne]

theorem encode_update {before after : List ι} (name : ι → String) (raw : ι → Option R)
    (hnd : (before ++ i :: after).Nodup) (r : Option R) :
    encode (before ++ i :: after) name (update raw i r) =
      encode before name raw ++ (r.map (Prod.mk (name i))).toList ++ encode after name raw := by
  have hbef : i ∉ before := fun h => (disjoint_of_nodup_append hnd) h (by simp)
  have haft : i ∉ after := (nodup_cons.mp (nodup_append.mp hnd).2.1).1
  have hbef' := encode_update_of_not_mem name raw hbef r
  have haft' := encode_update_of_not_mem name raw haft r
  unfold encode at hbef' haft' ⊢
  rw [filterMap_append, filterMap_cons, hbef', haft', update_self]
  cases r <;> simp

/-- Without one of its entries a record is read with one slot less. -/
theorem collect_omitted (hrd : Reads schema raw slots)
    (h : Omitted (encode schema.fields schema.name raw) entries) :
    ∃ i, (slots i).isSome = true ∧ schema.collect entries = .ok (update slots i none) := by
  generalize henc : encode schema.fields schema.name raw = encoded at h
  cases h with
  | entry front dropped back =>
    obtain ⟨before, i, after, hfields, hr, -, rfl, rfl⟩ := encode_eq_append henc
    obtain ⟨hraw, -⟩ | ⟨hmem, r, x, hraw, hslot, hread⟩ := hrd i
    · simp [hraw] at hr
    · refine ⟨i, by simp [hslot], ?_⟩
      have hupdate := encode_update schema.name raw (hfields ▸ schema.nodup) none
      rw [← collect_encode (Reads.update hrd (.inl ⟨rfl, rfl⟩)), hfields, hupdate]
      simp

/-- **One field less.** If something is deleted from a record, and a value where
something is deleted is refused or read as before, then the record is refused,
or it is read as before, or one slot that was filled stays empty. -/
theorem collect_dropped (hrd : Reads schema raw slots)
    (hinside : ∀ i r r' x, raw i = some r → slots i = some x → drop r r' →
      (∃ failure, schema.read i r' = .error failure) ∨ schema.read i r' = .ok x)
    (h : DroppedIn drop (encode schema.fields schema.name raw) entries) :
    (∃ failure, schema.collect entries = .error failure) ∨ schema.collect entries = .ok slots ∨
      ∃ i, (slots i).isSome = true ∧ schema.collect entries = .ok (update slots i none) := by
  generalize henc : encode schema.fields schema.name raw = encoded at h
  cases h with
  | entry front dropped back =>
    exact Or.inr (Or.inr (collect_omitted hrd (henc ▸ .entry front dropped back)))
  | @inside front name value value' back hdrop =>
    obtain ⟨before, i, after, hfields, hr, hname, rfl, rfl⟩ := encode_eq_append henc
    obtain ⟨hraw, -⟩ | ⟨hmem, r, x, hraw, hslot, hread⟩ := hrd i
    · simp [hraw] at hr
    · cases hname
      obtain ⟨failure, hfail⟩ | hsame := hinside i _ value' x hr hslot hdrop
      · exact Or.inl (foldlM_visit_error hmem hfail _ _ (by simp))
      · refine Or.inr (Or.inl ?_)
        have hupdate := encode_update schema.name raw (hfields ▸ schema.nodup) (some value')
        have hrd' := hrd.update (r := some value') (x := slots i)
          (.inr ⟨hmem, value', x, by simp, by simp [hslot], hsame⟩)
        rw [update_eq_self] at hrd'
        rw [← collect_encode hrd', hfields, hupdate]
        simp

/-! ### Tags -/

section Tag

variable {τ : Type} (tag : String) (readTag : R → Except ε τ) (duplicate missing : ε)

/-- One entry of a tagged record: its tag, or an entry of its content. -/
def visitTagged (state : Option τ × List (String × R)) (entry : String × R) :
    Except ε (Option τ × List (String × R)) :=
  if entry.1 = tag then do
    if state.1.isSome then throw duplicate
    let variant ← readTag entry.2
    return (some variant, state.2)
  else .ok (state.1, state.2 ++ [entry])

/-- The tag of a record, and the other entries. -/
def takeTag (entries : List (String × R)) : Except ε (τ × List (String × R)) := do
  match ← entries.foldlM (visitTagged tag readTag duplicate) (none, []) with
  | (some variant, content) => return (variant, content)
  | (none, _) => throw missing

omit [DecidableEq ι] in
theorem foldlM_visitTagged (variant : τ) : ∀ (rest content : List (String × R)),
    (∀ entry ∈ rest, entry.1 ≠ tag) →
    rest.foldlM (visitTagged tag readTag duplicate) (some variant, content) =
      .ok (some variant, content ++ rest)
  | [], content, _ => by simp [pure, Except.pure]
  | entry :: rest, content, h => by
    obtain ⟨hent, hrest⟩ := forall_mem_cons.mp h
    rw [foldlM_cons, visitTagged, if_neg hent]
    refine (foldlM_visitTagged variant rest _ hrest).trans ?_
    simp

/-- A record with its tag in front. -/
theorem takeTag_cons {r : R} {variant : τ} {rest : List (String × R)}
    (hread : readTag r = .ok variant) (hrest : ∀ entry ∈ rest, entry.1 ≠ tag) :
    takeTag tag readTag duplicate missing ((tag, r) :: rest) = .ok (variant, rest) := by
  have hfirst : visitTagged tag readTag duplicate (none, []) (tag, r) = .ok (some variant, []) := by
    simp [visitTagged, hread, bind, Except.bind, pure, Except.pure]
  rw [takeTag, foldlM_cons, hfirst]
  simp only [bind, Except.bind]
  rw [foldlM_visitTagged tag readTag duplicate variant rest [] hrest]
  rfl

theorem foldlM_visitTagged_mem : ∀ (entries : List (String × R))
    {state final : Option τ × List (String × R)},
    entries.foldlM (visitTagged tag readTag duplicate) state = .ok final →
    ∀ entry ∈ final.2, entry ∈ state.2 ∨ entry ∈ entries
  | [], state, final, h, entry, hmem => by
    cases h
    exact Or.inl hmem
  | first :: entries, state, final, h, entry, hmem => by
    rw [foldlM_cons] at h
    obtain ⟨next, hvis, h⟩ := bind_ok h
    have hnext : ∀ entry ∈ next.2, entry ∈ state.2 ∨ entry = first := by
      unfold visitTagged at hvis
      split_ifs at hvis
      · cases hvis
      · obtain ⟨variant, -, ⟨⟩⟩ := bind_ok hvis
        exact fun entry hent => Or.inl hent
      · cases hvis
        simp
    obtain hst | hrest := foldlM_visitTagged_mem entries h entry hmem
    · obtain hst | rfl := hnext entry hst
      · exact Or.inl hst
      · exact Or.inr (by simp)
    · exact Or.inr (by simp [hrest])

/-- The content of a tagged record is made of its entries. -/
theorem takeTag_mem {variant : τ} {entries content : List (String × R)}
    (h : takeTag tag readTag duplicate missing entries = .ok (variant, content)) :
    ∀ entry ∈ content, entry ∈ entries := by
  unfold takeTag at h
  obtain ⟨⟨_ | _, _⟩, hfold, ⟨⟩⟩ := bind_ok h
  intro entry hmem
  exact (foldlM_visitTagged_mem tag readTag duplicate entries hfold entry hmem).resolve_left nofun

end Tag

end Termivar.Record
