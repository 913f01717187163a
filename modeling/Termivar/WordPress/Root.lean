/-
# The root object of a Wordfence feed

Reading a feed member by member is the same as taking the members of the whole
document one after the other (`readFeed_complete`), and whatever is read is a
JSON object with these members (`readFeed_sound`).
-/
import Termivar.WordPress.Frames

namespace Termivar.Wordfence

open MeasuredCursor List

/-- A member of the root object: its key, the text of its value, and the value. -/
structure RootMember where
  key : String
  text : Bytes
  json : Json

/-- The texts between the braces of the root object. -/
def RootMembersText : List RootMember → Bytes → Prop
  | [], bytes => Json.Blank bytes
  | m :: ms, bytes => ∃ before name middle colon after, Json.Blank before ∧ Json.Blank middle ∧
    Json.Blank colon ∧ Json.Blank after ∧ Json.StringText m.key name ∧ Json.Text m.json m.text ∧
    ((ms = [] ∧ bytes = before ++ (name ++ (middle ++ 58 :: (colon ++ (m.text ++ after))))) ∨
      ∃ more, ms ≠ [] ∧
        bytes = before ++ (name ++ (middle ++ 58 :: (colon ++ (m.text ++ (after ++ 44 :: more))))) ∧
        RootMembersText ms more)

/-- The input is one object with the members, with whitespace around it. -/
def RootText (members : List RootMember) (input : Bytes) : Prop :=
  ∃ before inner after, Json.Blank before ∧ Json.Blank after ∧
    input = before ++ (123 :: (inner ++ 125 :: after)) ∧ RootMembersText members inner

theorem membersText_iff : ∀ {ms : List (String × Json)} {inner : Bytes}, Json.MembersText ms inner ↔
      ∃ members : List RootMember, RootMembersText members inner ∧
        ms = members.map fun m => (m.key, m.json)
  | [], inner => by
    constructor
    · intro h
      simp only [Json.MembersText] at h
      exact ⟨[], h, rfl⟩
    · rintro ⟨members, h, heq⟩
      obtain rfl := map_eq_nil_iff.mp heq.symm
      simp only [Json.MembersText]
      exact h
  | (name, x) :: xs, inner => by
    constructor
    · intro h
      simp only [Json.MembersText] at h
      obtain ⟨before, key, middle, colon, text, after, hbef, hmid, hcol, haft, hkey, htext,
        ⟨rfl, hbs⟩ | ⟨more, hne, hbs, hmore⟩⟩ := h
      · exact ⟨[⟨name, text, x⟩], ⟨before, key, middle, colon, after, hbef, hmid, hcol, haft,
          hkey, htext, Or.inl ⟨rfl, hbs⟩⟩, rfl⟩
      · obtain ⟨members, hmems, rfl⟩ := membersText_iff.mp hmore
        refine ⟨⟨name, text, x⟩ :: members, ⟨before, key, middle, colon, after, hbef, hmid,
          hcol, haft, hkey, htext, Or.inr ⟨more, ?_, hbs, hmems⟩⟩, rfl⟩
        exact fun h => hne (by rw [h]; rfl)
    · rintro ⟨members, h, heq⟩
      obtain ⟨m, ms, rfl, hm, rfl⟩ := map_eq_cons_iff.mp heq.symm
      obtain ⟨rfl, rfl⟩ := Prod.mk.inj hm
      obtain ⟨before, key, middle, colon, after, hbef, hmid, hcol, haft, hkey, htext, hcase⟩ := h
      simp only [Json.MembersText]
      refine ⟨before, key, middle, colon, m.text, after, hbef, hmid, hcol, haft, hkey, htext, ?_⟩
      rcases hcase with ⟨rfl, hbs⟩ | ⟨more, hne, hbs, hmore⟩
      · exact Or.inl ⟨rfl, hbs⟩
      · refine Or.inr ⟨more, ?_, hbs, membersText_iff.mpr ⟨ms, hmore, rfl⟩⟩
        exact fun h => hne (map_eq_nil_iff.mp h)

/-- A document that is an object is the root object with its members. -/
theorem document_iff_rootText {ms : List (String × Json)} {input : Bytes} :
    Json.Document (.object ms) input ↔
      ∃ members, RootText members input ∧ ms = members.map fun m => (m.key, m.json) := by
  constructor
  · rintro ⟨before, text, after, hbef, haft, htext, rfl⟩
    simp only [Json.Text] at htext
    obtain ⟨inner, rfl, hinn⟩ := htext
    obtain ⟨members, hmems, rfl⟩ := membersText_iff.mp hinn
    exact ⟨members, ⟨before, inner, after, hbef, haft, by simp, hmems⟩, rfl⟩
  · rintro ⟨members, ⟨before, inner, after, hbef, haft, rfl, hmems⟩, rfl⟩
    refine ⟨before, 123 :: (inner ++ [125]), after, hbef, haft, ?_, by simp⟩
    simp only [Json.Text]
    exact ⟨inner, rfl, membersText_iff.mpr ⟨members, hmems, rfl⟩⟩

/-! ### What a member does -/

section

variable {F : Type} (serde : Serde F) (memory : Memory)

/-- A key and the text of its record. -/
def admitMember (state : ParseState) (member : RootMember) :
    Except WordfenceV3ProductionError ParseState := do
  if state.records.values.length = maxRecords then throw .structuralLimitExceeded
  let state ← admitKey memory state member.key
  admitRecord serde memory state member.key member.text

/-- `serde_json` accepts exactly the JSON grammar. -/
def ReadsJson : Prop := ∀ bytes json, serde.readJson bytes = .ok json ↔ Json.Document json bytes

end

variable {F : Type} {serde : Serde F} {memory : Memory}

/-- A text that starts and ends with bytes that are no whitespace is that of
its value. -/
theorem text_of_document {json : Json} {first last : UInt8} {body : Bytes}
    (h : Json.Document json (first :: (body ++ [last]))) (hfirst : Json.isWs first = false)
    (hlast : Json.isWs last = false) : Json.Text json (first :: (body ++ [last])) := by
  obtain ⟨before, text, after, hbef, haft, htext, hbs⟩ := h
  obtain rfl : before = [] := by
    cases before with
    | nil => rfl
    | cons byte before =>
      rw [cons_append] at hbs
      rw [(cons.inj hbs).1, hbef byte mem_cons_self] at hfirst
      cases hfirst
  obtain rfl : after = [] := by
    rcases eq_nil_or_concat after with rfl | ⟨after, byte, rfl⟩
    · rfl
    · have hend := congrArg getLast? hbs
      simp only [concat_eq_append] at hend haft
      rw [← cons_append, getLast?_concat, nil_append, ← append_assoc,
        getLast?_concat, Option.some.injEq] at hend
      rw [hend, haft byte (by simp)] at hlast
      cases hlast
  rw [hbs]
  simpa using htext

theorem stringText_of_readJsonString (hserde : ReadsJson serde) {body : Bytes} {value : String}
    (h : readJsonString serde (34 :: (body ++ [34])) = .ok value) :
    Json.StringText value (34 :: (body ++ [34])) := by
  unfold readJsonString at h
  split at h
  · rename_i found hread
    cases h
    have htext := text_of_document ((hserde _ _).mp hread) (by decide) (by decide)
    simpa only [Json.Text] using htext
  · cases h

theorem readJsonString_of_stringText (hserde : ReadsJson serde) {text : Bytes} {value : String}
    (h : Json.StringText value text) : readJsonString serde text = .ok value := by
  have hdoc : Json.Document (.string value) text :=
    ⟨[], text, [], Json.Blank.nil, Json.Blank.nil, by simpa only [Json.Text] using h, by simp⟩
  rw [readJsonString, (hserde _ _).mpr hdoc]

/-! ### Whatever is read is an object -/

theorem object_of_text {json : Json} {tail : Bytes} (h : Json.Text json (123 :: tail)) :
    ∃ ms, json = .object ms := by
  cases json with
  | null => simp [Json.Text, Json.nullText] at h
  | bool b => cases b <;> simp [Json.Text, Json.boolText] at h
  | number lexeme =>
    simp only [Json.Text] at h
    obtain ⟨rfl, hnumber⟩ := h
    obtain ⟨byte, rest, hcons, hbyte⟩ := Json.number_head hnumber
    obtain ⟨rfl, -⟩ := cons.inj hcons
    exact absurd rfl (Json.starts_of_digit hbyte).2.2.2.1
  | string s =>
    simp only [Json.Text] at h
    obtain ⟨body, hcons, -⟩ := h
    cases (cons.inj hcons).1
  | array items =>
    simp only [Json.Text] at h
    obtain ⟨inner, hcons, -⟩ := h
    cases (cons.inj hcons).1
  | object ms => exact ⟨ms, rfl⟩

theorem RootMembersText.blank {members : List RootMember} {w inner : Bytes} (hw : Json.Blank w)
    (h : RootMembersText members inner) : RootMembersText members (w ++ inner) := by
  cases members with
  | nil => exact hw.append h
  | cons m ms =>
    obtain ⟨before, name, middle, colon, after, hbef, hmid, hcol, haft, hname, htext, hcase⟩ := h
    refine ⟨w ++ before, name, middle, colon, after, hw.append hbef, hmid, hcol, haft, hname,
      htext, ?_⟩
    rcases hcase with ⟨rfl, rfl⟩ | ⟨more, hne, rfl, hmore⟩
    · exact Or.inl ⟨rfl, by simp⟩
    · exact Or.inr ⟨more, hne, by simp, hmore⟩

/-- One member is a key and an object. -/
theorem readMember_sound {delimiter : Option UInt8} {state state' : ParseState}
    {cursor cursor' : MeasuredCursor}
    (h : readMember serde memory delimiter state cursor = .ok (state', cursor')) :
    delimiter = some 34 ∧ ∃ m name middle colon, Json.Blank middle ∧ Json.Blank colon ∧
      (ReadsJson serde → Json.StringText m.key (34 :: name) ∧ Json.Text m.json m.text ∧
        ∃ ms, m.json = .object ms) ∧
      admitMember serde memory state m = .ok state' ∧
      Took cursor cursor' (name ++ (middle ++ 58 :: (colon ++ m.text))) := by
  unfold readMember at h
  by_cases hdel : delimiter ≠ some 34
  · rw [if_pos hdel] at h
    cases h
  rw [if_neg hdel] at h
  by_cases hmany : state.records.values.length = maxRecords
  · rw [if_pos hmany] at h
    cases h
  rw [if_neg hmany] at h
  obtain ⟨⟨key, cursor₁⟩, hkey, h⟩ := bind_ok h
  obtain ⟨state₁, hst₁, h⟩ := bind_ok h
  obtain ⟨⟨colonByte, cursor₂⟩, hcolonByte, h⟩ := bind_ok h
  simp only at h
  by_cases hisC : colonByte ≠ some 58
  · rw [if_pos hisC] at h
    cases h
  rw [if_neg hisC] at h
  obtain ⟨⟨brace, cursor₃⟩, hbr, h⟩ := bind_ok h
  simp only at h
  by_cases hisBr : brace ≠ some 123
  · rw [if_pos hisBr] at h
    cases h
  rw [if_neg hisBr] at h
  obtain ⟨⟨text, cursor₄⟩, htext, h⟩ := bind_ok h
  obtain ⟨state₂, hst₂, h⟩ := bind_ok h
  cases h
  rw [not_not] at hdel hisC hisBr
  subst hisC hisBr
  -- the parts of the member in the input
  unfold captureString at hkey
  obtain ⟨⟨raw, cursorKey⟩, hraw, hkey⟩ := bind_ok hkey
  obtain ⟨value, hvalue, hkey⟩ := bind_ok hkey
  obtain ⟨rfl, rfl⟩ := Prod.mk.inj (Except.ok.inj hkey)
  obtain ⟨body, rfl, htookKey⟩ := captureStringBytes_sound hraw
  obtain ⟨middle, hmid, htookC⟩ := nextNonWhitespace_some hcolonByte
  obtain ⟨colon, hcol, htookB⟩ := nextNonWhitespace_some hbr
  obtain ⟨recordBody, last, rfl, hlast, htookT⟩ := captureRecordObject_sound htext
  obtain ⟨json, hjson⟩ : ∃ json, serde.readJson (123 :: (recordBody ++ [last])) = .ok json := by
    obtain ⟨value, hvalue, -⟩ := bind_ok hst₂
    obtain ⟨json, hjson, -⟩ := bind_ok hvalue
    exact ⟨json, hjson⟩
  refine ⟨hdel, ⟨value, 123 :: (recordBody ++ [last]), json⟩, body ++ [34], middle, colon,
    hmid, hcol, ?_, ?_, ?_⟩
  · intro hserde
    have hlastWs : Json.isWs last = false := by rcases hlast with rfl | rfl <;> decide
    have hjsonT := text_of_document ((hserde _ _).mp hjson) (by decide) hlastWs
    exact ⟨stringText_of_readJsonString hserde hvalue, hjsonT, object_of_text hjsonT⟩
  · unfold admitMember
    rw [if_neg hmany]
    exact Checked.bind_eq_ok.mpr ⟨state₁, hst₁, hst₂⟩
  · have htook := ((htookKey.trans htookC).trans htookB).trans htookT
    simpa using htook

/-- The members that were read are those of the text between the braces. -/
theorem readMembers_sound : ∀ {fuel : Nat} {delimiter : Option UInt8}
    {state state' : ParseState} {cursor cursor' : MeasuredCursor},
    readMembers serde memory fuel delimiter state cursor = .ok (state', cursor') →
    delimiter = some 34 ∧ ∃ members inner taken, 34 :: taken = inner ++ [125] ∧
      (ReadsJson serde → RootMembersText members inner ∧ ∀ m ∈ members, ∃ ms, m.json = .object ms) ∧
      members.foldlM (admitMember serde memory) state = .ok state' ∧ members ≠ [] ∧
      Took cursor cursor' taken
  | 0, _, _, _, _, _, h => by
    rw [readMembers] at h
    cases h
  | fuel + 1, delimiter, state, state', cursor, cursor', h => by
    rw [readMembers] at h
    obtain ⟨⟨state₁, cursor₁⟩, hmbr, hread⟩ := bind_ok h
    obtain ⟨⟨delimiter₁, cursor₂⟩, hnext, hloop⟩ := bind_ok hread
    clear h hread
    obtain ⟨rfl, m, name, middle, colon, hmid, hcol, hrd, hadmit, htook⟩ :=
      readMember_sound hmbr
    simp only at hloop
    refine ⟨rfl, ?_⟩
    by_cases hcom : delimiter₁ = some 44
    · rw [if_pos hcom] at hloop
      subst hcom
      obtain ⟨after, haft, htookComma⟩ := nextNonWhitespace_some hnext
      obtain ⟨⟨delimiter₂, cursor₃⟩, hnext₂, hloop⟩ := bind_ok hloop
      simp only at hloop
      by_cases hbr : delimiter₂ = some 125
      · rw [if_pos hbr] at hloop
        cases hloop
      rw [if_neg hbr] at hloop
      obtain ⟨rfl, members, inner, taken, hinn, hmems, hfold, hne, htookR⟩ :=
        readMembers_sound hloop
      obtain ⟨w, hw, htookQ⟩ := nextNonWhitespace_some hnext₂
      refine ⟨m :: members, 34 :: name ++ (middle ++ 58 :: (colon ++ (m.text ++ (after ++ 44 ::
        (w ++ inner))))), _, ?_, ?_, ?_, by simp,
        ((htook.trans htookComma).trans htookQ).trans htookR⟩
      · simp [← hinn]
      · intro hserde
        obtain ⟨hname, htext, hobject⟩ := hrd hserde
        obtain ⟨hrest, hobj⟩ := hmems hserde
        exact ⟨⟨[], _, middle, colon, after, Json.Blank.nil, hmid, hcol, haft, hname, htext,
          Or.inr ⟨_, hne, by simp, hrest.blank hw⟩⟩, forall_mem_cons.mpr ⟨hobject, hobj⟩⟩
      · rw [foldlM_cons]
        exact Checked.bind_eq_ok.mpr ⟨state₁, hadmit, hfold⟩
    · rw [if_neg hcom] at hloop
      split_ifs at hloop with hbr
      subst hbr
      obtain ⟨after, haft, htookB⟩ := nextNonWhitespace_some hnext
      cases hloop
      refine ⟨[m], 34 :: name ++ (middle ++ 58 :: (colon ++ (m.text ++ after))), _, ?_, ?_, ?_,
        by simp, htook.trans htookB⟩
      · simp
      · intro hserde
        obtain ⟨hname, htext, hobject⟩ := hrd hserde
        exact ⟨⟨[], _, middle, colon, after, Json.Blank.nil, hmid, hcol, haft, hname, htext,
          Or.inl ⟨rfl, by simp⟩⟩, forall_mem_singleton.mpr hobject⟩
      · rw [foldlM_cons]
        exact Checked.bind_eq_ok.mpr ⟨_, hadmit, rfl⟩

/-- **Whatever is read is one object**, and its members were taken one after
the other. -/
theorem readFeed_sound {cursor cursor' : MeasuredCursor} {retained : RetainedBudget}
    {state : ParseState} (h : readFeed serde memory cursor retained = .ok (state, cursor')) :
    ∃ members, (ReadsJson serde →
        RootText members cursor.bytes ∧ ∀ m ∈ members, ∃ ms, m.json = .object ms) ∧
      members.foldlM (admitMember serde memory) (ParseState.start retained) = .ok state ∧
      cursor' = cursor.after cursor.bytes [] := by
  unfold readFeed at h
  obtain ⟨⟨first, cursor₁⟩, hfirst, h⟩ := bind_ok h
  simp only at h
  by_cases hemp : first = none ∧ cursor₁.hashed.length = 0
  · rw [if_pos hemp] at h
    cases h
  rw [if_neg hemp] at h
  by_cases hbr : first ≠ some 123
  · rw [if_pos hbr] at h
    cases h
  rw [if_neg hbr] at h
  rw [not_not] at hbr
  subst hbr
  obtain ⟨before, hbef, htookB⟩ := nextNonWhitespace_some hfirst
  obtain ⟨⟨delimiter, cursor₂⟩, hdel, h⟩ := bind_ok h
  obtain ⟨⟨state₁, cursor₃⟩, hroot, h⟩ := bind_ok h
  obtain ⟨⟨trailing, cursor₄⟩, htrail, h⟩ := bind_ok h
  simp only at h
  by_cases hsome : trailing.isSome = true
  · rw [if_pos hsome] at h
    cases h
  rw [if_neg hsome] at h
  obtain ⟨rfl, rfl⟩ := Prod.mk.inj (Except.ok.inj h)
  obtain ⟨after, haft, ⟨b, rfl, -, -⟩ | ⟨-, htookEnd, hend⟩⟩ := nextNonWhitespace_sound htrail
  · simp at hsome
  have hfin : ∀ {taken : Bytes}, Took cursor cursor₄ taken →
      cursor₄ = cursor.after cursor.bytes [] := by
    intro taken htook
    have hbs := htook.bytes
    rw [hend, append_nil] at hbs
    rw [htook.after, hend, hbs]
  unfold readRoot at hroot
  by_cases hclosed : delimiter = some 125
  · rw [if_pos hclosed] at hroot
    subst hclosed
    cases hroot
    obtain ⟨w, hw, htookClose⟩ := nextNonWhitespace_some hdel
    have htook := (htookB.trans htookClose).trans htookEnd
    refine ⟨[], fun _ => ⟨⟨before, w, after, hbef, haft, ?_, hw⟩, by simp⟩, rfl, hfin htook⟩
    rw [htook.bytes, hend]
    simp
  · rw [if_neg hclosed] at hroot
    obtain ⟨rfl, members, inner, taken, hinn, hmems, hfold, -, htookM⟩ :=
      readMembers_sound hroot
    obtain ⟨w, hw, htookQ⟩ := nextNonWhitespace_some hdel
    have htook := ((htookB.trans htookQ).trans htookM).trans htookEnd
    refine ⟨members, fun hserde => ?_, hfold, hfin htook⟩
    obtain ⟨htext, hobj⟩ := hmems hserde
    refine ⟨⟨before, w ++ inner, after, hbef, haft, ?_, htext.blank hw⟩, hobj⟩
    rw [htook.bytes, hend]
    have hspl : inner ++ 125 :: after = 34 :: (taken ++ after) := by
      rw [← cons_append, hinn]
      simp
    simp [hspl]

/-! ### A document is read member by member -/

/-- The limits of one member: an object that is not too deep or too long, and
a key that is not written too long. -/
structure Framable (member : RootMember) : Prop where
  object : ∃ ms, member.json = .object ms
  depth : member.json.depth ≤ 10
  length : member.text.length ≤ maxRecordBytes
  key : ∀ name, Json.StringText member.key name → name.length ≤ 256

theorem readMember_complete (hserde : ReadsJson serde) {m : RootMember} {state : ParseState}
    {cursor : MeasuredCursor} {name middle colon rest : Bytes} (hfram : Framable m)
    (hmid : Json.Blank middle) (hcol : Json.Blank colon)
    (hname : Json.StringText m.key (34 :: name)) (htext : Json.Text m.json m.text)
    (hbs : cursor.bytes = name ++ (middle ++ 58 :: (colon ++ (m.text ++ rest))))
    (hroom : Room cursor (name ++ (middle ++ 58 :: (colon ++ m.text))).length) :
    readMember serde memory (some 34) state cursor = (admitMember serde memory state m).map
      (·, cursor.after (name ++ (middle ++ 58 :: (colon ++ m.text))) rest) := by
  obtain ⟨ms, hms⟩ := hfram.object
  have hdep := hfram.depth
  rw [hms] at htext hdep
  obtain ⟨inner, htextEq, -⟩ : ∃ inner, m.text = 123 :: (inner ++ [125]) ∧
      Json.MembersText ms inner := by simpa only [Json.Text] using htext
  simp only [length_append, length_cons, htextEq, length_nil] at hroom
  have hkey : cursor.captureString serde = .ok (m.key,
      cursor.after name (middle ++ 58 :: (colon ++ (m.text ++ rest)))) := by
    have hcapt := captureStringBytes_complete hname (hfram.key _ hname) hbs
      (hroom.mono (by simp only [tail_cons]; omega))
    rw [captureString, hcapt]
    simp only [bind, Except.bind, readJsonString_of_stringText hserde hname]
    rfl
  have hcolonByte : (cursor.after name (middle ++ 58 :: (colon ++ (m.text ++ rest)))).nextNonWhitespace
      = .ok (some 58, (cursor.after name (middle ++ 58 :: (colon ++ (m.text ++ rest)))).after
        (middle ++ [58]) (colon ++ (m.text ++ rest))) :=
    nextNonWhitespace_complete (by decide) hmid rfl (Room.after (hroom.mono (by omega)))
  rw [after_after] at hcolonByte
  have hbr : (cursor.after (name ++ (middle ++ [58])) (colon ++ (m.text ++ rest))).nextNonWhitespace
      = .ok (some 123, (cursor.after (name ++ (middle ++ [58])) (colon ++ (m.text ++ rest))).after
        (colon ++ [123]) (inner ++ [125] ++ rest)) := by
    refine nextNonWhitespace_complete (by decide) hcol ?_ (Room.after (hroom.mono ?_))
    · rw [htextEq]
      rfl
    · simp only [length_append, length_cons, length_nil]
      omega
  rw [after_after] at hbr
  have hrec : (cursor.after (name ++ (middle ++ [58]) ++ (colon ++ [123]))
      (inner ++ [125] ++ rest)).captureRecordObject = .ok (m.text,
        (cursor.after (name ++ (middle ++ [58]) ++ (colon ++ [123])) (inner ++ [125] ++ rest)).after
          m.text.tail rest) := by
    refine captureRecordObject_complete htext hdep hfram.length ?_ (Room.after (hroom.mono ?_))
    · rw [htextEq]
      rfl
    · simp only [htextEq, tail_cons, length_append, length_cons, length_nil]
      omega
  rw [after_after] at hrec
  have htaken : name ++ (middle ++ [58]) ++ (colon ++ [123]) ++ m.text.tail =
      name ++ (middle ++ 58 :: (colon ++ m.text)) := by
    simp [htextEq]
  rw [htaken] at hrec
  unfold readMember admitMember
  rw [if_neg (by simp)]
  by_cases hmany : state.records.values.length = maxRecords
  · rw [if_pos hmany, if_pos hmany]
    rfl
  rw [if_neg hmany, if_neg hmany]
  simp only [hkey, bind, Except.bind]
  cases admitKey memory state m.key with
  | error e => rfl
  | ok state₁ =>
    simp only [hcolonByte, hbr, hrec, ne_eq, not_true_eq_false, if_false]
    cases admitRecord serde memory state₁ m.key m.text <;> rfl

/-- The text of the members starts with the quote of a key. -/
theorem readMembers_complete (hserde : ReadsJson serde) : ∀ {members : List RootMember}
    {inner : Bytes}, RootMembersText members inner → members ≠ [] →
    (∀ m ∈ members, Framable m) → ∃ w tail, Json.Blank w ∧ inner = w ++ 34 :: tail ∧
      members.length ≤ tail.length ∧ ∀ {fuel : Nat} {state : ParseState} {cursor : MeasuredCursor} {rest : Bytes},
        members.length ≤ fuel → cursor.bytes = tail ++ 125 :: rest → Room cursor (tail.length + 1) →
        readMembers serde memory fuel (some 34) state cursor =
          (members.foldlM (admitMember serde memory) state).map (·, cursor.after (tail ++ [125]) rest)
  | [], _, _, hne, _ => absurd rfl hne
  | m :: ms, inner, h, _, hfram => by
    obtain ⟨before, key, middle, colon, after, hbef, hmid, hcol, haft, hkey, htext, hcase⟩ := h
    obtain ⟨name, rfl⟩ : ∃ name, key = 34 :: name := by
      obtain ⟨body, rfl, -⟩ := hkey
      exact ⟨_, rfl⟩
    have hm := hfram m mem_cons_self
    rcases hcase with ⟨rfl, rfl⟩ | ⟨more, hne, rfl, hmore⟩
    · refine ⟨before, name ++ (middle ++ 58 :: (colon ++ (m.text ++ after))), hbef, by simp,
        by simp; omega, ?_⟩
      intro fuel state cursor rest hfuel hbs hroom
      obtain ⟨fuel, rfl⟩ : ∃ n, fuel = n + 1 := ⟨fuel - 1, by simp at hfuel; omega⟩
      have hmbr := @readMember_complete _ serde memory hserde m state cursor name middle colon
        (after ++ 125 :: rest) hm hmid hcol hkey htext (by simpa using hbs)
        (hroom.mono (by simp only [length_append, length_cons]; omega))
      rw [readMembers, hmbr, foldlM_cons]
      cases admitMember serde memory state m with
      | error e => rfl
      | ok state₁ =>
        simp only [Except.map, bind, Except.bind, foldlM_nil]
        rw [@nextNonWhitespace_complete _ _ _ 125 (by decide) haft rfl
          (Room.after (hroom.mono (by simp only [length_append, length_cons]; omega)))]
        simp [after_after, pure, Except.pure]
    · obtain ⟨w, tail, hw, rfl, hlength, hrest⟩ := readMembers_complete hserde hmore hne
        fun m' hm' => hfram m' (mem_cons_of_mem _ hm')
      refine ⟨before, name ++ (middle ++ 58 :: (colon ++ (m.text ++ (after ++ 44 :: (w ++ 34 :: tail))))),
        hbef, by simp, by simp; omega, ?_⟩
      intro fuel state cursor rest hfuel hbs hroom
      obtain ⟨fuel, rfl⟩ : ∃ n, fuel = n + 1 := ⟨fuel - 1, by simp at hfuel; omega⟩
      simp only [length_append, length_cons] at hroom
      have hmbr := @readMember_complete _ serde memory hserde m state cursor name middle colon
        (after ++ 44 :: (w ++ 34 :: (tail ++ 125 :: rest))) hm hmid hcol hkey htext
        (by simpa using hbs)
        (hroom.mono (by simp only [length_append, length_cons]; omega))
      rw [readMembers, hmbr, foldlM_cons]
      cases admitMember serde memory state m with
      | error e => rfl
      | ok state₁ =>
        simp only [Except.map, bind, Except.bind]
        rw [@nextNonWhitespace_complete _ _ _ 44 (by decide) haft rfl
          (Room.after (hroom.mono (by simp only [length_append, length_cons]; omega)))]
        simp only [after_after, if_true]
        rw [@nextNonWhitespace_complete _ _ _ 34 (by decide) hw rfl (Room.after (hroom.mono (by
            simp only [length_append, length_cons, length_nil]; omega)))]
        simp only [after_after]
        rw [if_neg (by decide), hrest (by simpa using hfuel) rfl (Room.after (hroom.mono (by
          simp only [length_append, length_cons, length_nil]; omega)))]
        simp [after_after, Except.map]

/-- **A document is read member by member**, in the order of the text. -/
theorem readFeed_complete (hserde : ReadsJson serde) {members : List RootMember}
    {input : Bytes} {maximum : Nat} {retained : RetainedBudget}
    (h : RootText members input) (hfram : ∀ m ∈ members, Framable m)
    (hroom : input.length ≤ maximum) :
    readFeed serde memory ⟨input, false, [], maximum⟩ retained =
      (members.foldlM (admitMember serde memory) (ParseState.start retained)).map
        (·, (⟨input, false, [], maximum⟩ : MeasuredCursor).after input []) := by
  obtain ⟨before, inner, after, hbef, haft, rfl, hmems⟩ := h
  generalize hcursor : (⟨_, false, [], maximum⟩ : MeasuredCursor) = cursor
  have hbs : cursor.bytes = before ++ 123 :: (inner ++ 125 :: after) := by rw [← hcursor]
  have hbroken : cursor.broken = false := by rw [← hcursor]
  have hall : Room cursor (before ++ 123 :: (inner ++ 125 :: after)).length := by
    rw [Room, ← hcursor]
    simpa using hroom
  simp only [length_append, length_cons] at hall
  have hfirst := @nextNonWhitespace_complete _ _ _ 123 (by decide) hbef hbs (hall.mono (by omega))
  -- behind the last brace there is whitespace only
  have hlast : ∀ {taken : Bytes}, taken.length = before.length + inner.length + 2 →
      (cursor.after taken after).nextNonWhitespace =
        .ok (none, cursor.after (taken ++ after) []) := by
    intro taken htaken
    have hend := @nextNonWhitespace_end (cursor.after taken after) hbroken haft
      (Room.after (hall.mono (by rw [htaken]; simp only [MeasuredCursor.after]; omega)))
    rwa [after_after] at hend
  unfold readFeed
  simp only [hfirst, bind, Except.bind]
  rw [if_neg (by simp), if_neg (by simp)]
  cases hne : members with
  | nil =>
    rw [hne] at hmems
    have hclose := @nextNonWhitespace_complete (cursor.after (before ++ [123]) (inner ++ 125 :: after))
      inner after 125 (by decide) hmems rfl (Room.after (hall.mono (by simp; omega)))
    rw [hclose]
    simp only [readRoot, if_true, after_after]
    rw [hlast (by simp; omega)]
    simp [Except.map, pure, Except.pure]
  | cons m ms =>
    rw [← hne]
    obtain ⟨w, tail, hw, rfl, hlength, hread⟩ := @readMembers_complete _ _ memory hserde _ _ hmems
      (by rw [hne]; simp) hfram
    simp only [length_append, length_cons] at hall
    have hquote := @nextNonWhitespace_complete
      (cursor.after (before ++ [123]) (w ++ 34 :: tail ++ 125 :: after)) w (tail ++ 125 :: after) 34
      (by decide) hw (by simp [MeasuredCursor.after]) (Room.after (hall.mono (by simp; omega)))
    rw [hquote]
    simp only [readRoot, after_after]
    rw [if_neg (by decide), hread ?_ rfl (Room.after (hall.mono (by simp; omega)))]
    · cases members.foldlM (admitMember serde memory) (ParseState.start retained) with
      | error e => rfl
      | ok state =>
        simp only [Except.map, after_after]
        rw [hlast (by simp; omega)]
        simp [pure, Except.pure]
    · simp only [length_append, MeasuredCursor.after]
      omega

/-! ### Keys -/

theorem utf8Bytes_eq (value : String) : utf8Bytes value = value.toList.flatMap String.utf8EncodeChar := by
  rw [utf8Bytes, ← String.utf8Encode_toList]
  simp [utf8Encode]

/-- An ASCII character is written with six bytes at most. -/
theorem charText_length {c : Char} {text : Bytes} (h : Json.CharText c text)
    (hascii : ∀ byte ∈ String.utf8EncodeChar c, byte < 128) : text.length ≤ 6 := by
  have hsm : c.toNat < 0x80 ∧ String.utf8EncodeChar c = [UInt8.ofNat c.toNat] := by
    rcases Json.encode_cases c with hsm | hlarge
    · exact hsm
    · obtain ⟨byte, rest, hcons⟩ := exists_cons_of_ne_nil (by simp : String.utf8EncodeChar c ≠ [])
      have hmem : byte ∈ String.utf8EncodeChar c := hcons ▸ mem_cons_self
      exact absurd (hascii byte hmem) (by simpa using hlarge byte hmem)
  cases h with
  | plain hcontrol hquote hslash => simp [hsm.2]
  | escaped hmem => simp
  | unicode hhex => simp
  | pair hhigh hlow hhighRange hlowRange hvalue =>
    have hlarge : 65536 ≤ c.toNat :=
      hvalue ▸ Nat.le_add_right_of_le (Nat.le_add_right _ _)
    exact absurd hsm.1 (Nat.not_lt.mpr (le_trans (by decide) hlarge))

theorem charsText_length : ∀ {cs : List Char} {body : Bytes}, Json.CharsText cs body →
    (∀ c ∈ cs, ∀ byte ∈ String.utf8EncodeChar c, byte < 128) → body.length ≤ 6 * cs.length
  | [], body, h, _ => by
    obtain rfl : body = [] := h
    simp
  | c :: cs, body, h, hascii => by
    obtain ⟨first, rest, rfl, hfirst, hrest⟩ := h
    have hone := charText_length hfirst (hascii c mem_cons_self)
    have hmore := charsText_length hrest fun d hd => hascii d (mem_cons_of_mem _ hd)
    simp only [length_append, length_cons]
    omega

/-- An identifier is never written too long for a key. -/
theorem key_length {key : String} {name : Bytes} (hvalid : validateUuid key = .ok ())
    (hname : Json.StringText key name) : name.length ≤ 256 := by
  have hbs : (utf8Bytes key).length = 36 ∧ ∀ byte ∈ utf8Bytes key, byte < 128 := by
    unfold validateUuid unsupportedUnless at hvalid
    simp only at hvalid
    split_ifs at hvalid with hacc
    rw [Bool.and_eq_true, decide_eq_true_eq, all_eq_true] at hacc
    refine ⟨hacc.1, fun byte hbyte => ?_⟩
    obtain ⟨i, hi, rfl⟩ := mem_iff_getElem.mp hbyte
    have hdig := hacc.2 ((utf8Bytes key)[i], i) (mem_zipIdx_iff_getElem?.mpr (by simp [hi]))
    simp only at hdig
    split_ifs at hdig with hdash
    · rw [decide_eq_true_eq] at hdig
      rw [hdig]
      decide
    · simp only [isLowerHex, isAsciiDigit, Bool.or_eq_true, Bool.and_eq_true,
        decide_eq_true_eq] at hdig
      have hle : (utf8Bytes key)[i].toNat ≤ 102 := by
        rcases hdig with ⟨-, hle⟩ | ⟨-, hle⟩
        · exact le_trans (UInt8.le_iff_toNat_le.mp hle) (by decide)
        · exact UInt8.le_iff_toNat_le.mp hle
      exact UInt8.lt_iff_toNat_lt.mpr (lt_of_le_of_lt hle (by decide))
  rw [utf8Bytes_eq] at hbs
  obtain ⟨body, rfl, hchr⟩ := hname
  have hbody := charsText_length hchr fun c hc byte hbyte =>
    hbs.2 byte (mem_flatMap.mpr ⟨c, hc, hbyte⟩)
  have hlength : key.toList.length ≤ (key.toList.flatMap String.utf8EncodeChar).length := by
    rw [length_flatMap, ← length_map (f := fun c => (String.utf8EncodeChar c).length)]
    refine length_le_sum_of_one_le _ ?_
    intro n hn
    obtain ⟨c, -, rfl⟩ := mem_map.mp hn
    exact length_pos_of_ne_nil (by simp)
  simp only [length_cons, length_append, length_nil]
  omega

/-! ### The members of a document -/

theorem read_of_rootText (h : RootText members input) :
    Json.read input = some (.object (members.map fun m => (m.key, m.json))) :=
  Json.read_eq_some.mpr (document_iff_rootText.mpr ⟨members, h, rfl⟩)

theorem rootText_of_read {ms : List (String × Json)} (h : Json.read input = some (.object ms)) :
    ∃ members, RootText members input ∧ ms = members.map fun m => (m.key, m.json) :=
  document_iff_rootText.mp (Json.read_eq_some.mp h)

/-- The text of every member is that of its value. -/
theorem RootMembersText.text : ∀ {members : List RootMember} {inner : Bytes},
    RootMembersText members inner →
    ∀ m ∈ members, Json.Text m.json m.text ∧ ∃ name, Json.StringText m.key name
  | [], _, _, _, hm => by cases hm
  | m :: ms, inner, h, m', hm' => by
    obtain ⟨before, name, middle, colon, after, -, -, -, -, hname, htext, hcase⟩ := h
    rcases mem_cons.mp hm' with rfl | hm'
    · exact ⟨htext, name, hname⟩
    · rcases hcase with ⟨rfl, -⟩ | ⟨more, -, -, hmore⟩
      · cases hm'
      · exact hmore.text m' hm'

theorem RootMembersText.length_text : ∀ {members : List RootMember} {inner : Bytes},
    RootMembersText members inner → ∀ m ∈ members, m.text.length ≤ inner.length
  | [], _, _, _, hm => by cases hm
  | m :: ms, inner, h, m', hm' => by
    obtain ⟨before, name, middle, colon, after, -, -, -, -, -, -, hcase⟩ := h
    rcases hcase with ⟨rfl, rfl⟩ | ⟨more, -, rfl, hmore⟩
    · obtain rfl := mem_singleton.mp hm'
      simp
      omega
    · rcases mem_cons.mp hm' with rfl | hm'
      · simp
        omega
      · have := hmore.length_text m' hm'
        simp only [length_append, length_cons]
        omega

end Termivar.Wordfence
