/-
# Where a record ends

The reader of a feed finds the end of a record by counting brackets outside of
strings. On the text of a JSON object this is the end of the object
(`captureRecordObject_complete`), whatever its strings contain: the brackets
that are open when a value starts are open throughout the value and again at
its end (`through_text`).
-/
import Termivar.JsonReader
import Termivar.WordPress.Stream

namespace Termivar.Wordfence

open MeasuredCursor List Option

/-- The cursor when some of its bytes were taken. -/
def MeasuredCursor.after (cursor : MeasuredCursor) (taken rest : Bytes) : MeasuredCursor :=
  { cursor with bytes := rest, hashed := cursor.hashed ++ taken }

theorem after_after (cursor : MeasuredCursor) (first second rest rest' : Bytes) :
    (cursor.after first rest).after second rest' = cursor.after (first ++ second) rest' := by
  simp [MeasuredCursor.after]

/-- There is room for some more bytes. -/
def Room (cursor : MeasuredCursor) (count : Nat) : Prop :=
  cursor.hashed.length + count ≤ cursor.maximumBytes

variable {cursor cursor' : MeasuredCursor} {rest : Bytes}

theorem Room.after {taken rest : Bytes} {count : Nat}
    (h : Room cursor (taken.length + count)) : Room (cursor.after taken rest) count := by
  simp only [Room, MeasuredCursor.after, length_append] at h ⊢
  omega

theorem Room.mono {count count' : Nat} (h : Room cursor count)
    (hle : count' ≤ count) : Room cursor count' := by
  unfold Room at h ⊢
  omega

/-! ### What the reader takes -/

theorem nextByte_complete {byte : UInt8} (h : cursor.bytes = byte :: rest) (hroom : Room cursor 1) :
    cursor.nextByte = .ok (some byte, cursor.after [byte] rest) := by
  unfold Room at hroom
  rw [nextByte, h]
  simp only
  rw [if_neg (by omega)]
  rfl

theorem requireByte_complete {byte : UInt8} (h : cursor.bytes = byte :: rest)
    (hroom : Room cursor 1) :
    cursor.requireByte = .ok (byte, cursor.after [byte] rest) := by
  rw [requireByte, nextByte_complete h hroom]
  rfl

theorem skipWhitespace_complete {byte : UInt8} {rest : Bytes} (hbyte : Json.isWs byte = false) :
    ∀ {w : Bytes} {fuel : Nat} {cursor : MeasuredCursor}, Json.Blank w → w.length < fuel →
    cursor.bytes = w ++ byte :: rest → Room cursor (w.length + 1) →
    cursor.skipWhitespace fuel = .ok (some byte, cursor.after (w ++ [byte]) rest)
  | [], fuel + 1, cursor, _, _, hbs, hroom => by
    rw [skipWhitespace, nextByte_complete hbs (hroom.mono (by simp))]
    simp only [bind, Except.bind, any_some, hbyte, Bool.false_eq_true, if_false]
    rfl
  | space :: w, fuel + 1, cursor, hw, hfuel, hbs, hroom => by
    have hspace : Json.isWs space = true := hw space mem_cons_self
    rw [cons_append] at hbs
    have hrest := @skipWhitespace_complete byte rest hbyte w fuel
      (cursor.after [space] (w ++ byte :: rest))
      (fun b hb => hw b (mem_cons_of_mem _ hb)) (by simpa using hfuel) rfl
      (Room.after (hroom.mono (by simp; omega)))
    rw [skipWhitespace, nextByte_complete hbs (hroom.mono (by simp))]
    simp only [bind, Except.bind, any_some, hspace, if_true]
    rw [hrest, after_after]
    rfl

theorem nextNonWhitespace_complete {w rest : Bytes} {byte : UInt8}
    (hbyte : Json.isWs byte = false) (hw : Json.Blank w) (hbs : cursor.bytes = w ++ byte :: rest)
    (hroom : Room cursor (w.length + 1)) :
    cursor.nextNonWhitespace = .ok (some byte, cursor.after (w ++ [byte]) rest) :=
  skipWhitespace_complete hbyte hw (by rw [hbs]; simp) hbs hroom

/-- At the end of the input there is whitespace only. -/
theorem nextNonWhitespace_end (hbroken : cursor.broken = false)
    (hw : Json.Blank cursor.bytes) (hroom : Room cursor cursor.bytes.length) :
    cursor.nextNonWhitespace = .ok (none, cursor.after cursor.bytes []) := by
  have hloop : ∀ (w : Bytes) (fuel : Nat) (cursor : MeasuredCursor), Json.Blank w →
      cursor.broken = false → w.length < fuel → cursor.bytes = w → Room cursor w.length →
      cursor.skipWhitespace fuel = .ok (none, cursor.after w []) := by
    intro w
    induction w with
    | nil =>
      rintro (_ | fuel) cursor - hbroken hfuel hbs -
      · omega
      · rcases cursor with ⟨_, _, _, _⟩
        obtain rfl := hbs
        obtain rfl := hbroken
        simp [skipWhitespace, nextByte, bind, Except.bind, pure, Except.pure, MeasuredCursor.after]
    | cons space w ih =>
      rintro (_ | fuel) cursor hw hbroken hfuel hbs hroom
      · omega
      · have hspace : Json.isWs space = true := hw space mem_cons_self
        rw [skipWhitespace, nextByte_complete hbs (hroom.mono (by simp))]
        simp only [bind, Except.bind, any_some, hspace, if_true]
        rw [ih fuel (cursor.after [space] w) (fun b hb => hw b (mem_cons_of_mem _ hb)) hbroken
          (by simpa using hfuel) rfl (Room.after (hroom.mono (by simp; omega))), after_after]
        rfl
  exact hloop _ _ cursor hw hbroken (by omega) rfl hroom

/-! ### Strings -/

/-- Bytes inside of a string: no quote ends it. The flags say whether a
backslash stands before the bytes and at their end. -/
def Inside : Bool → Bytes → Bool → Prop
  | escaped, [], escaped' => escaped = escaped'
  | true, _ :: rest, escaped' => Inside false rest escaped'
  | false, byte :: rest, escaped' =>
    if byte = 92 then Inside true rest escaped' else byte ≠ 34 ∧ Inside false rest escaped'

theorem Inside.append : ∀ {bytes more : Bytes} {a b c : Bool},
    Inside a bytes b → Inside b more c → Inside a (bytes ++ more) c
  | [], _, _, _, _, h, h' => by
    obtain rfl := h
    exact h'
  | byte :: rest, more, true, b, c, h, h' => @Inside.append rest more false b c h h'
  | byte :: rest, more, false, b, c, h, h' => by
    simp only [cons_append, Inside] at h ⊢
    split_ifs at h ⊢ with hslash
    · exact @Inside.append rest more true b c h h'
    · exact ⟨h.1, @Inside.append rest more false b c h.2 h'⟩

/-- Bytes that are no quotes and no backslashes. -/
theorem inside_plain : ∀ {bytes : Bytes}, (∀ byte ∈ bytes, byte ≠ 34 ∧ byte ≠ 92) →
    Inside false bytes false
  | [], _ => rfl
  | byte :: rest, h => by
    have hbyte := h byte mem_cons_self
    rw [Inside, if_neg hbyte.2]
    exact ⟨hbyte.1, inside_plain fun b hb => h b (mem_cons_of_mem _ hb)⟩

theorem hexValue_plain {byte : UInt8} {value : Nat} (h : Json.hexValue byte = some value) :
    byte ≠ 34 ∧ byte ≠ 92 := by
  constructor <;> rintro rfl <;> revert h <;> simp [Json.hexValue]

theorem hex4_plain {x y z w : UInt8} {value : Nat} (h : Json.hex4 x y z w = some value) :
    ∀ byte ∈ [x, y, z, w], byte ≠ 34 ∧ byte ≠ 92 := by
  simp only [Json.hex4, bind_eq_bind, bind_eq_some_iff] at h
  obtain ⟨_, hx, _, hy, _, hz, _, hw, -⟩ := h
  intro byte hbyte
  simp only [mem_cons, not_mem_nil, or_false] at hbyte
  rcases hbyte with rfl | rfl | rfl | rfl
  · exact hexValue_plain hx
  · exact hexValue_plain hy
  · exact hexValue_plain hz
  · exact hexValue_plain hw

/-- An escape with four digits. -/
theorem inside_unicode {x y z w : UInt8} {value : Nat} (h : Json.hex4 x y z w = some value) :
    Inside false [92, 117, x, y, z, w] false := by
  have hplain := inside_plain (hex4_plain h)
  simpa only [Inside, if_true] using hplain

theorem inside_char {c : Char} {text : Bytes} (h : Json.CharText c text) :
    Inside false text false := by
  cases h with
  | plain hcontrol hquote hslash => exact inside_plain (Json.encode_not_special hquote hslash)
  | escaped hmem => simp only [Inside, if_true]
  | unicode hhex => exact inside_unicode hhex
  | pair hhigh hlow => exact (inside_unicode hhigh).append (inside_unicode hlow)

theorem inside_chars : ∀ {cs : List Char} {body : Bytes}, Json.CharsText cs body →
    Inside false body false
  | [], body, h => by
    obtain rfl : body = [] := h
    rfl
  | c :: cs, body, h => by
    obtain ⟨first, rest, rfl, hfirst, hrest⟩ := h
    exact (inside_char hfirst).append (inside_chars hrest)

/-- The loop over a string takes what is inside of it. -/
theorem captureStringBytes_inside : ∀ {bytes : Bytes} {escaped escaped' : Bool} {fuel : Nat}
    {raw more : Bytes} {cursor : MeasuredCursor}, Inside escaped bytes escaped' →
    raw.length + bytes.length ≤ 256 → cursor.bytes = bytes ++ more → Room cursor bytes.length →
    cursor.captureStringBytes (bytes.length + fuel) raw escaped =
      (cursor.after bytes more).captureStringBytes fuel (raw ++ bytes) escaped'
  | [], escaped, escaped', fuel, raw, more, cursor, h, _, hbs, _ => by
    obtain rfl : escaped = escaped' := by cases escaped <;> exact h
    rcases cursor with ⟨_, _, _, _⟩
    obtain rfl := hbs
    simp [MeasuredCursor.after]
  | byte :: rest, escaped, escaped', fuel, raw, more, cursor, h, hlimit, hbs, hroom => by
    rw [cons_append] at hbs
    simp only [length_cons] at hlimit hroom
    have hrest : ∀ flag, Inside flag rest escaped' →
        (cursor.after [byte] (rest ++ more)).captureStringBytes (rest.length + fuel) (raw ++ [byte])
          flag = (cursor.after (byte :: rest) more).captureStringBytes fuel (raw ++ byte :: rest)
            escaped' := by
      intro flag hflag
      rw [@captureStringBytes_inside rest flag escaped' fuel (raw ++ [byte]) more
        (cursor.after [byte] (rest ++ more)) hflag (by simp; omega) rfl
        (Room.after (hroom.mono (by simp; omega))), after_after]
      simp
    rw [length_cons, show rest.length + 1 + fuel = (rest.length + fuel) + 1 by omega,
      captureStringBytes, requireByte_complete hbs (hroom.mono (by omega))]
    simp only [bind, Except.bind, length_append, length_cons, length_nil]
    rw [if_neg (by omega)]
    cases escaped with
    | true => exact hrest false h
    | false =>
      simp only [Inside] at h
      split_ifs at h with hslash
      · simp only [hslash, if_true] at hrest ⊢
        exact hrest true h
      · simp only [Bool.false_eq_true, if_false, hslash, h.1]
        exact hrest false h.2

/-- The text of a string that is not too long is taken to its quote. -/
theorem captureStringBytes_complete {name : String} {key rest : Bytes}
    (h : Json.StringText name key) (hlimit : key.length ≤ 256) (hbs : cursor.bytes = key.tail ++ rest)
    (hroom : Room cursor key.tail.length) :
    cursor.captureStringBytes (cursor.bytes.length + 1) [34] false =
      .ok (key, cursor.after key.tail rest) := by
  obtain ⟨body, rfl, hbody⟩ := h
  simp only [tail_cons, length_append, length_cons, length_nil,
    append_assoc, cons_append, nil_append] at hlimit hbs hroom ⊢
  have hloop := @captureStringBytes_inside body false false (1 + rest.length + 1) [34] (34 :: rest)
    cursor (inside_chars hbody) (by simp; omega) hbs (hroom.mono (by omega))
  have hfuel : cursor.bytes.length + 1 = body.length + (1 + rest.length + 1) := by
    rw [hbs]
    simp
    omega
  have hroom' : Room (cursor.after body (34 :: rest)) 1 := Room.after hroom
  rw [hfuel, hloop, captureStringBytes, requireByte_complete rfl hroom']
  simp only [bind, Except.bind, length_append, length_cons, length_nil]
  rw [if_neg (by omega)]
  simp [after_after, pure, Except.pure]

/-! ### Brackets -/

/-- The reader goes from one state to another over some bytes, with the
brackets `base` open after every byte. -/
def Through (base : Bytes) : MeasuredCursor.Scan → Bytes → MeasuredCursor.Scan → Prop
  | scan, [], scan' => scan = scan'
  | scan, byte :: rest, scan' =>
    ∃ next, scan.byte byte = .ok next ∧ base <:+ next.stack ∧ Through base next rest scan'

theorem Through.append {base : Bytes} : ∀ {bytes more : Bytes} {a b c : MeasuredCursor.Scan},
    Through base a bytes b → Through base b more c → Through base a (bytes ++ more) c
  | [], _, _, _, _, h, h' => by
    obtain rfl := h
    exact h'
  | _ :: _, _, _, _, _, ⟨next, hbyte, hbase, hrest⟩, h' => ⟨next, hbyte, hbase, hrest.append h'⟩

theorem Through.weaken {base inner : Bytes} (hbase : base <:+ inner) :
    ∀ {bytes : Bytes} {a b : MeasuredCursor.Scan}, Through inner a bytes b → Through base a bytes b
  | [], _, _, h => h
  | _ :: _, _, _, ⟨next, hbyte, hinn, hrest⟩ => ⟨next, hbyte, hbase.trans hinn, hrest.weaken hbase⟩

/-- Some bytes leave the reader where it was, outside of strings. -/
def Passes (stack bytes : Bytes) : Prop :=
  Through stack ⟨stack, false, false⟩ bytes ⟨stack, false, false⟩

theorem Passes.append {stack bytes more : Bytes} (h : Passes stack bytes)
    (h' : Passes stack more) : Passes stack (bytes ++ more) :=
  Through.append h h'

/-- A byte that changes nothing outside of a string. -/
def isNeutral (byte : UInt8) : Bool :=
  byte ≠ 34 && byte ≠ 123 && byte ≠ 91 && byte ≠ 125 && byte ≠ 93

theorem through_neutral {stack : Bytes} : ∀ {bytes : Bytes},
    (∀ byte ∈ bytes, isNeutral byte = true) → Passes stack bytes
  | [], _ => rfl
  | byte :: rest, h => by
    have hbyte := h byte mem_cons_self
    simp only [isNeutral, Bool.and_eq_true, decide_eq_true_eq] at hbyte
    refine ⟨⟨stack, false, false⟩, ?_, suffix_rfl,
      through_neutral fun b hb => h b (mem_cons_of_mem _ hb)⟩
    simp [Scan.byte, hbyte]

theorem neutral_of_ws {w : Bytes} (h : Json.Blank w) : ∀ byte ∈ w, isNeutral byte = true := by
  intro byte hbyte
  have hws := h byte hbyte
  simp only [Json.isWs, Bool.or_eq_true, decide_eq_true_eq] at hws
  rcases hws with ((rfl | rfl) | rfl) | rfl <;> decide

theorem neutral_of_number {byte : UInt8} (h : Json.isNumberByte byte = true) :
    isNeutral byte = true := by
  simp only [isNeutral, Bool.and_eq_true, decide_eq_true_eq]
  refine ⟨⟨⟨⟨?_, ?_⟩, ?_⟩, ?_⟩, ?_⟩ <;> rintro rfl <;> revert h <;> decide

/-- Inside of a string. -/
theorem through_inside {stack : Bytes} : ∀ {bytes : Bytes} {escaped escaped' : Bool},
    Inside escaped bytes escaped' → Through stack ⟨stack, true, escaped⟩ bytes ⟨stack, true, escaped'⟩
  | [], escaped, escaped', h => by
    obtain rfl : escaped = escaped' := by cases escaped <;> exact h
    rfl
  | byte :: rest, true, escaped', h =>
    ⟨⟨stack, true, false⟩, by simp [Scan.byte], suffix_rfl, through_inside h⟩
  | byte :: rest, false, escaped', h => by
    simp only [Inside] at h
    split_ifs at h with hslash
    · exact ⟨⟨stack, true, true⟩, by simp [Scan.byte, hslash], suffix_rfl, through_inside h⟩
    · exact ⟨⟨stack, true, false⟩, by simp [Scan.byte, hslash, h.1], suffix_rfl, through_inside h.2⟩

theorem through_string {stack text : Bytes} {value : String} (h : Json.StringText value text) :
    Passes stack text := by
  obtain ⟨body, rfl, hbody⟩ := h
  refine ⟨⟨stack, true, false⟩, by simp [Scan.byte], suffix_rfl, ?_⟩
  refine (through_inside (inside_chars hbody)).append ?_
  exact ⟨⟨stack, false, false⟩, by simp [Scan.byte], suffix_rfl, rfl⟩

/-- What is between two brackets that match. -/
theorem through_brackets {stack inner : Bytes} {opening closing : UInt8}
    (hmatch : (opening = 123 ∧ closing = 125) ∨ (opening = 91 ∧ closing = 93))
    (hdep : stack.length + 1 ≤ 10)
    (h : Passes (opening :: stack) inner) : Passes stack (opening :: (inner ++ [closing])) := by
  have hroom : ¬ 10 < stack.length + 1 := by omega
  rcases hmatch with ⟨rfl, rfl⟩ | ⟨rfl, rfl⟩
  · refine ⟨⟨123 :: stack, false, false⟩, by simp [Scan.byte, hroom], suffix_cons _ _, ?_⟩
    refine (Through.weaken (suffix_cons _ _) h).append ?_
    exact ⟨⟨stack, false, false⟩, by simp [Scan.byte], suffix_rfl, rfl⟩
  · refine ⟨⟨91 :: stack, false, false⟩, by simp [Scan.byte, hroom], suffix_cons _ _, ?_⟩
    refine (Through.weaken (suffix_cons _ _) h).append ?_
    exact ⟨⟨stack, false, false⟩, by simp [Scan.byte], suffix_rfl, rfl⟩

mutual

/-- **The brackets around a value stay open throughout the value**, and are the
ones that are open at its end. -/
theorem through_text : ∀ (value : Json) {text stack : Bytes}, Json.Text value text →
    stack.length + value.depth ≤ 10 → Passes stack text
  | .null, text, stack, h, _ => by
    simp only [Json.Text] at h
    subst h
    exact through_neutral (all_eq_true.mp (by decide))
  | .bool value, text, stack, h, _ => by
    simp only [Json.Text] at h
    subst h
    cases value <;> exact through_neutral (all_eq_true.mp (by decide))
  | .number lexeme, text, stack, h, _ => by
    simp only [Json.Text] at h
    obtain ⟨rfl, hnumber⟩ := h
    have hall := (Bool.and_eq_true_iff.mp hnumber).1
    exact through_neutral fun byte hbyte => neutral_of_number (all_eq_true.mp hall byte hbyte)
  | .string value, text, stack, h, _ => by
    simp only [Json.Text] at h
    exact through_string h
  | .array items, text, stack, h, hdep => by
    simp only [Json.Text] at h
    obtain ⟨inner, rfl, hinn⟩ := h
    simp only [Json.depth] at hdep
    refine through_brackets (Or.inr ⟨rfl, rfl⟩) (by omega) (through_items items hinn ?_)
    simp only [length_cons]
    omega
  | .object members, text, stack, h, hdep => by
    simp only [Json.Text] at h
    obtain ⟨inner, rfl, hinn⟩ := h
    simp only [Json.depth] at hdep
    refine through_brackets (Or.inl ⟨rfl, rfl⟩) (by omega) (through_members members hinn ?_)
    simp only [length_cons]
    omega

theorem through_items : ∀ (items : List Json) {inner stack : Bytes}, Json.ItemsText items inner →
    stack.length + Json.itemsDepth items ≤ 10 → Passes stack inner
  | [], inner, stack, h, _ => by
    simp only [Json.ItemsText] at h
    exact through_neutral (neutral_of_ws h)
  | x :: xs, inner, stack, h, hdep => by
    simp only [Json.ItemsText] at h
    simp only [Json.itemsDepth] at hdep
    obtain ⟨before, text, after, hbef, haft, htext, hcase⟩ := h
    have hx := @through_text x text stack htext (by omega)
    have hsta := (through_neutral (neutral_of_ws hbef)).append hx
    rcases hcase with ⟨-, rfl⟩ | ⟨more, -, rfl, hmore⟩
    · rw [← append_assoc]
      exact hsta.append (through_neutral (neutral_of_ws haft))
    · have hcom : Passes stack [44] := through_neutral (all_eq_true.mp (by decide))
      have hrest := @through_items xs more stack hmore (by omega)
      have hend := ((through_neutral (neutral_of_ws haft)).append hcom).append hrest
      rw [← append_assoc]
      rw [append_assoc] at hend
      exact hsta.append hend

theorem through_members : ∀ (members : List (String × Json)) {inner stack : Bytes},
    Json.MembersText members inner → stack.length + Json.membersDepth members ≤ 10 →
    Passes stack inner
  | [], inner, stack, h, _ => by
    simp only [Json.MembersText] at h
    exact through_neutral (neutral_of_ws h)
  | (name, x) :: xs, inner, stack, h, hdep => by
    simp only [Json.MembersText] at h
    simp only [Json.membersDepth] at hdep
    obtain ⟨before, key, middle, colon, text, after, hbef, hmid, hcol, haft, hkey, htext,
      hcase⟩ := h
    have hx := @through_text x text stack htext (by omega)
    have hsign : Passes stack [58] := through_neutral (all_eq_true.mp (by decide))
    have hname : Passes stack (before ++ key) :=
      (through_neutral (neutral_of_ws hbef)).append (through_string hkey)
    have hseparator := ((through_neutral (neutral_of_ws hmid)).append hsign).append
      (through_neutral (neutral_of_ws hcol))
    have hsta := (hname.append hseparator).append hx
    rcases hcase with ⟨-, rfl⟩ | ⟨more, -, rfl, hmore⟩
    · have hall := hsta.append (through_neutral (neutral_of_ws haft))
      simpa only [append_assoc, cons_append, nil_append] using hall
    · have hcom : Passes stack [44] := through_neutral (all_eq_true.mp (by decide))
      have hrest := @through_members xs more stack hmore (by omega)
      have hall := hsta.append (((through_neutral (neutral_of_ws haft)).append hcom).append hrest)
      simpa only [append_assoc, cons_append, nil_append] using hall

end

/-! ### Records -/

/-- The loop over a record takes bytes as long as brackets stay open. -/
theorem captureRecordBytes_through {base : Bytes} (hbase : base ≠ []) :
    ∀ {bytes : Bytes} {scan scan' : MeasuredCursor.Scan} {fuel : Nat} {raw more : Bytes}
      {cursor : MeasuredCursor}, Through base scan bytes scan' → base <:+ scan.stack →
    raw.length + bytes.length ≤ maxRecordBytes → cursor.bytes = bytes ++ more →
    Room cursor bytes.length →
    cursor.captureRecordBytes (bytes.length + fuel) raw scan =
      (cursor.after bytes more).captureRecordBytes fuel (raw ++ bytes) scan'
  | [], scan, scan', fuel, raw, more, cursor, h, _, _, hbs, _ => by
    obtain rfl : scan = scan' := h
    rcases cursor with ⟨_, _, _, _⟩
    obtain rfl := hbs
    simp [MeasuredCursor.after]
  | byte :: rest, scan, scan', fuel, raw, more, cursor, h, hopen, hlimit, hbs, hroom => by
    obtain ⟨next, hbyte, hnext, hrest⟩ := h
    rw [cons_append] at hbs
    simp only [length_cons] at hlimit hroom
    have hne : scan.stack.isEmpty = false := by
      cases hstack : scan.stack with
      | nil =>
        rw [hstack, suffix_nil] at hopen
        exact absurd hopen hbase
      | cons _ _ => rfl
    rw [length_cons, show rest.length + 1 + fuel = (rest.length + fuel) + 1 by omega,
      captureRecordBytes, hne, requireByte_complete hbs (hroom.mono (by omega))]
    simp only [bind, Except.bind, length_append, length_cons, length_nil,
      Bool.false_eq_true, if_false]
    rw [if_neg (by omega), hbyte]
    simp only
    rw [@captureRecordBytes_through base hbase rest next scan' fuel (raw ++ [byte]) more
      (cursor.after [byte] (rest ++ more)) hrest hnext (by simp; omega) rfl
      (Room.after (hroom.mono (by simp; omega))), after_after]
    simp

/-- **The end of a record is the end of its object.** -/
theorem captureRecordObject_complete {members : List (String × Json)} {text rest : Bytes}
    (h : Json.Text (.object members) text)
    (hdep : (Json.object members).depth ≤ 10) (hlimit : text.length ≤ maxRecordBytes)
    (hbs : cursor.bytes = text.tail ++ rest) (hroom : Room cursor text.tail.length) :
    cursor.captureRecordObject = .ok (text, cursor.after text.tail rest) := by
  simp only [Json.Text] at h
  obtain ⟨inner, rfl, hinn⟩ := h
  simp only [Json.depth] at hdep
  simp only [tail_cons, length_append, length_cons, length_nil,
    append_assoc, cons_append, nil_append] at hlimit hbs hroom ⊢
  have hthr := @through_members members inner [123] hinn (by simp; omega)
  have hloop := @captureRecordBytes_through [123] (by simp) inner _ _ (1 + rest.length + 1) [123]
    (125 :: rest) cursor hthr suffix_rfl (by simp; omega) hbs (hroom.mono (by omega))
  have hfuel : cursor.bytes.length + 1 = inner.length + (1 + rest.length + 1) := by
    rw [hbs]
    simp
    omega
  have hroom' : Room (cursor.after inner (125 :: rest)) 1 := Room.after hroom
  rw [captureRecordObject, hfuel, hloop, captureRecordBytes, requireByte_complete rfl hroom']
  have hlast : Scan.byte ⟨[123], false, false⟩ 125 = .ok ⟨[], false, false⟩ := by simp [Scan.byte]
  simp only [bind, Except.bind, isEmpty_cons, length_append, length_cons,
    length_nil, Bool.false_eq_true, if_false]
  rw [if_neg (by omega), hlast, show 1 + rest.length = rest.length + 1 by omega]
  simp only [captureRecordBytes, isEmpty_nil, if_true, after_after]
  simp

/-! ### What was taken -/

/-- One cursor comes from another by taking some bytes. -/
structure Took (cursor cursor' : MeasuredCursor) (taken : Bytes) : Prop where
  bytes : cursor.bytes = taken ++ cursor'.bytes
  after : cursor' = cursor.after taken cursor'.bytes

theorem Took.refl (cursor : MeasuredCursor) : Took cursor cursor [] :=
  ⟨rfl, by simp [MeasuredCursor.after]⟩

theorem Took.trans {a b c : MeasuredCursor} {first second : Bytes} (h : Took a b first)
    (h' : Took b c second) : Took a c (first ++ second) := by
  refine ⟨by rw [h.bytes, h'.bytes, append_assoc], ?_⟩
  conv => lhs; rw [h'.after, h.after, after_after]

theorem nextByte_sound {byte : Option UInt8} (h : cursor.nextByte = .ok (byte, cursor')) :
    (∃ b, byte = some b ∧ Took cursor cursor' [b]) ∨
      (byte = none ∧ cursor' = cursor ∧ cursor.bytes = []) := by
  unfold nextByte at h
  split at h
  · rename_i hbs
    split_ifs at h
    cases h
    exact Or.inr ⟨rfl, rfl, hbs⟩
  · rename_i b rest hbs
    split_ifs at h
    cases h
    exact Or.inl ⟨b, rfl, hbs, rfl⟩

theorem requireByte_sound {byte : UInt8}
    (h : cursor.requireByte = .ok (byte, cursor')) : Took cursor cursor' [byte] := by
  obtain ⟨⟨found, next⟩, hnext, h⟩ := bind_ok h
  obtain ⟨b, hb, h⟩ := bind_ok h
  cases h
  rcases nextByte_sound hnext with ⟨b', rfl, htook⟩ | ⟨rfl, -, -⟩
  · cases hb
    exact htook
  · cases hb

/-- Whitespace, and then a byte that is none, or the end. -/
theorem skipWhitespace_sound : ∀ {fuel : Nat} {cursor cursor' : MeasuredCursor} {byte : Option UInt8},
    cursor.bytes.length < fuel → cursor.skipWhitespace fuel = .ok (byte, cursor') →
    ∃ w, Json.Blank w ∧ ((∃ b, byte = some b ∧ Json.isWs b = false ∧ Took cursor cursor' (w ++ [b])) ∨
      (byte = none ∧ Took cursor cursor' w ∧ cursor'.bytes = []))
  | fuel + 1, cursor, cursor', byte, hfuel, h => by
    rw [skipWhitespace] at h
    obtain ⟨⟨found, next⟩, hnext, hread⟩ := bind_ok h
    simp only at hread
    rcases nextByte_sound hnext with ⟨b, rfl, htook⟩ | ⟨rfl, rfl, hend⟩
    · simp only [any_some] at hread
      split_ifs at hread with hws
      · have hsh : next.bytes.length < fuel := by
          rw [htook.bytes] at hfuel
          simpa using hfuel
        obtain ⟨w, hw, hcase⟩ := skipWhitespace_sound hsh hread
        refine ⟨b :: w, fun x hx => ?_, ?_⟩
        · rcases mem_cons.mp hx with rfl | hx
          · exact hws
          · exact hw x hx
        · rcases hcase with ⟨b', rfl, hb', htook'⟩ | ⟨rfl, htook', hend⟩
          · exact Or.inl ⟨b', rfl, hb', htook.trans htook'⟩
          · exact Or.inr ⟨rfl, htook.trans htook', hend⟩
      · cases hread
        exact ⟨[], Json.Blank.nil, Or.inl ⟨b, rfl, by simpa using hws, htook⟩⟩
    · simp only [any_none, Bool.false_eq_true, if_false] at hread
      cases hread
      exact ⟨[], Json.Blank.nil, Or.inr ⟨rfl, Took.refl _, hend⟩⟩

theorem nextNonWhitespace_sound {byte : Option UInt8}
    (h : cursor.nextNonWhitespace = .ok (byte, cursor')) :
    ∃ w, Json.Blank w ∧ ((∃ b, byte = some b ∧ Json.isWs b = false ∧ Took cursor cursor' (w ++ [b])) ∨
      (byte = none ∧ Took cursor cursor' w ∧ cursor'.bytes = [])) :=
  skipWhitespace_sound (Nat.lt_succ_self _) h

/-- The byte that was looked for, behind whitespace. -/
theorem nextNonWhitespace_some {byte : UInt8}
    (h : cursor.nextNonWhitespace = .ok (some byte, cursor')) :
    ∃ w, Json.Blank w ∧ Took cursor cursor' (w ++ [byte]) := by
  obtain ⟨w, hw, ⟨b, hb, -, htook⟩ | ⟨hnone, -⟩⟩ := nextNonWhitespace_sound h
  · cases hb
    exact ⟨w, hw, htook⟩
  · cases hnone

/-- The text of a string is what was taken, and a quote ends it. -/
theorem captureStringBytes_sound : ∀ {fuel : Nat} {raw raw' : Bytes} {escaped : Bool}
    {cursor cursor' : MeasuredCursor},
    cursor.captureStringBytes fuel raw escaped = .ok (raw', cursor') →
    ∃ body, raw' = raw ++ (body ++ [34]) ∧ Took cursor cursor' (body ++ [34])
  | 0, _, _, _, _, _, h => by
    rw [captureStringBytes] at h
    cases h
  | fuel + 1, raw, raw', escaped, cursor, cursor', h => by
    rw [captureStringBytes] at h
    obtain ⟨⟨byte, next⟩, hnext, h⟩ := bind_ok h
    have htook := requireByte_sound hnext
    simp only at h
    by_cases hlimit : (raw ++ [byte]).length > 256
    · rw [if_pos hlimit] at h
      cases h
    rw [if_neg hlimit] at h
    -- whatever the byte was, the loop goes on behind it, unless it is the quote
    have hrest : ∀ flag, next.captureStringBytes fuel (raw ++ [byte]) flag = .ok (raw', cursor') →
        ∃ body, raw' = raw ++ (body ++ [34]) ∧ Took cursor cursor' (body ++ [34]) := by
      intro flag hflag
      obtain ⟨body, rfl, htook'⟩ := captureStringBytes_sound hflag
      exact ⟨byte :: body, by simp, htook.trans htook'⟩
    split_ifs at h with hesc hslash hquote
    · exact hrest _ h
    · exact hrest _ h
    · subst hquote
      cases h
      exact ⟨[], rfl, htook⟩
    · exact hrest _ h

/-- A byte that closes the last bracket is a bracket. -/
theorem Scan.byte_closes {scan next : MeasuredCursor.Scan} {byte : UInt8} (h : scan.byte byte = .ok next)
    (hopen : scan.stack.isEmpty = false) (hclosed : next.stack.isEmpty = true) :
    byte = 125 ∨ byte = 93 := by
  unfold Scan.byte at h
  split_ifs at h with h1 h2 h3 h4 h5 h6 h7 h8 h9 <;> first
    | exact h8
    | (obtain rfl := Except.ok.inj h; simp_all)

/-- The text of a record is what was taken, and a bracket ends it. -/
theorem captureRecordBytes_sound : ∀ {fuel : Nat} {raw raw' : Bytes} {scan : MeasuredCursor.Scan}
    {cursor cursor' : MeasuredCursor}, scan.stack.isEmpty = false →
    cursor.captureRecordBytes fuel raw scan = .ok (raw', cursor') →
    ∃ body last, raw' = raw ++ (body ++ [last]) ∧ (last = 125 ∨ last = 93) ∧
      Took cursor cursor' (body ++ [last])
  | 0, _, _, _, _, _, _, h => by
    rw [captureRecordBytes] at h
    cases h
  | fuel + 1, raw, raw', scan, cursor, cursor', hopen, h => by
    rw [captureRecordBytes, hopen] at h
    simp only [Bool.false_eq_true, if_false] at h
    obtain ⟨⟨byte, next⟩, hnext, h⟩ := bind_ok h
    have htook := requireByte_sound hnext
    simp only at h
    by_cases hlimit : (raw ++ [byte]).length > maxRecordBytes
    · rw [if_pos hlimit] at h
      cases h
    rw [if_neg hlimit] at h
    obtain ⟨scan', hscan, h⟩ := bind_ok h
    cases hemp : scan'.stack.isEmpty with
    | true =>
      have hlast := Scan.byte_closes hscan hopen hemp
      cases fuel with
      | zero =>
        rw [captureRecordBytes] at h
        cases h
      | succ fuel =>
        rw [captureRecordBytes, hemp] at h
        simp only [if_true] at h
        cases h
        exact ⟨[], byte, rfl, hlast, htook⟩
    | false =>
      obtain ⟨body, last, rfl, hlast, htook'⟩ := captureRecordBytes_sound hemp h
      exact ⟨byte :: body, last, by simp, hlast, htook.trans htook'⟩

theorem captureRecordObject_sound {text : Bytes}
    (h : cursor.captureRecordObject = .ok (text, cursor')) :
    ∃ body last, text = 123 :: (body ++ [last]) ∧ (last = 125 ∨ last = 93) ∧
      Took cursor cursor' (body ++ [last]) :=
  captureRecordBytes_sound rfl h

end Termivar.Wordfence
