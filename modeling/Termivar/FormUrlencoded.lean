/-
# Form-urlencoded queries

A query as its pairs: the parts between ampersands, the empty ones left out,
each cut at its first equals sign; in a name or a value a plus sign is a blank
and a percent sign with two hexadecimal digits is a byte. The bytes are read as
a text by `lossy`, of which a user needs what it makes of UTF-8.

One part exchanged for another is one pair exchanged (`splitOn_set`, `parse_set`).
-/
import Termivar.Text

namespace Termivar.Form

open List

/-- The number of a hexadecimal digit, in either case. -/
def hexValue (c : Char) : Option Nat :=
  if '0' ≤ c ∧ c ≤ '9' then some (c.toNat - 48)
  else if 'A' ≤ c ∧ c ≤ 'F' then some (c.toNat - 55)
  else if 'a' ≤ c ∧ c ≤ 'f' then some (c.toNat - 87)
  else none

def hexPair (high low : Char) : Option UInt8 := do
  let high ← hexValue high
  let low ← hexValue low
  return UInt8.ofNat (16 * high + low)

/-- The bytes of an encoded text; a percent sign that escapes nothing stands for itself. -/
def decodeBytes : List Char → Bytes
  | '+' :: rest => 32 :: decodeBytes rest
  | '%' :: high :: low :: rest =>
    match hexPair high low with
    | some byte => byte :: decodeBytes rest
    | none => 37 :: decodeBytes (high :: low :: rest)
  | c :: rest => String.utf8EncodeChar c ++ decodeBytes rest
  | [] => []

variable (lossy : Bytes → String)

/-- A part of the query, cut at its first equals sign. -/
def pair (part : List Char) : String × String :=
  match splitOnce '=' part with
  | some (name, value) => (lossy (decodeBytes name), lossy (decodeBytes value))
  | none => (lossy (decodeBytes part), lossy [])

def parse (query : List Char) : List (String × String) :=
  ((query.splitOn '&').filter fun part => part ≠ []).map (pair lossy)

/-! ### Decoding -/

theorem decodeBytes_escape {high low : Char} {byte : UInt8} (h : hexPair high low = some byte)
    (rest : List Char) : decodeBytes ('%' :: high :: low :: rest) = byte :: decodeBytes rest := by
  rw [decodeBytes, h]

theorem decodeBytes_plain {c : Char} (hplus : c ≠ '+') (hperc : c ≠ '%') (rest : List Char) :
    decodeBytes (c :: rest) = String.utf8EncodeChar c ++ decodeBytes rest := by
  rw [decodeBytes]
  · exact fun h => hplus (by simpa using h)
  · exact fun _ _ _ h => absurd h hperc

theorem pair_of_equals {name : List Char} (h : '=' ∉ name) (value : List Char) :
    pair lossy (name ++ '=' :: value) = (lossy (decodeBytes name), lossy (decodeBytes value)) := by
  rw [pair, splitOnce_eq_some.mpr ⟨rfl, h⟩]

/-! ### Parts -/

variable {query part : List Char}

theorem not_mem_of_mem_splitOn {separator : Char} : ∀ {text part : List Char},
    part ∈ text.splitOn separator → separator ∉ part
  | [], part, h => by
    rw [splitOn_nil, mem_singleton] at h
    simp [h]
  | c :: cs, part, h => by
    rw [splitOn_cons_eq_if_modifyHead] at h
    obtain ⟨first, others, hpar⟩ := exists_cons_of_ne_nil (splitOn_ne_nil separator cs)
    have hcs : ∀ part ∈ cs.splitOn separator, separator ∉ part := fun _ => not_mem_of_mem_splitOn
    rw [hpar] at h hcs
    split_ifs at h with hc
    · rcases mem_cons.mp h with rfl | hrest
      · exact not_mem_nil
      · exact hcs part hrest
    · rcases mem_cons.mp h with rfl | hrest
      · rw [mem_cons, not_or]
        exact ⟨fun heq => hc (by simp [heq]), hcs first mem_cons_self⟩
      · exact hcs part (mem_cons_of_mem _ hrest)

/-- A part without a separator exchanged for another one. -/
theorem splitOn_set {separator : Char} (text : List Char) (index : Nat) {part : List Char}
    (h : separator ∉ part) :
    ([separator].intercalate ((text.splitOn separator).set index part)).splitOn separator =
      (text.splitOn separator).set index part := by
  refine splitOn_intercalate separator ?_ fun hnil => ?_
  · intro other hoth
    rcases mem_or_eq_of_mem_set hoth with hold | rfl
    · exact not_mem_of_mem_splitOn hold
    · exact h
  · exact splitOn_ne_nil separator text (by simp at hnil)

/-- A query without empty parts has a pair for each part. -/
theorem parse_of_nonempty (h : ∀ part ∈ query.splitOn '&', part ≠ []) :
    parse lossy query = (query.splitOn '&').map (pair lossy) := by
  rw [parse, filter_eq_self.mpr fun part hpart => decide_eq_true (h part hpart)]

/-- **One part exchanged is one pair exchanged.** -/
theorem parse_set (h : ∀ part ∈ query.splitOn '&', part ≠ []) (index : Nat) (hpart : '&' ∉ part)
    (hnon : part ≠ []) :
    parse lossy (['&'].intercalate ((query.splitOn '&').set index part)) =
      (parse lossy query).set index (pair lossy part) := by
  rw [parse_of_nonempty lossy h, ← map_set, parse_of_nonempty, splitOn_set query index hpart]
  intro other hoth
  rw [splitOn_set query index hpart] at hoth
  rcases mem_or_eq_of_mem_set hoth with hold | rfl
  · exact h other hold
  · exact hnon

end Termivar.Form
