/-
# JSON texts

The grammar of JSON as a relation between a syntax tree and its texts, by
recursion on the tree: a value has many texts, since whitespace and escapes
are free, and a text has one value. Objects keep their members in order, with
repeated names, and numbers keep their text.
-/
import Termivar.Machine

namespace Termivar

/-- The syntax tree of a JSON text. -/
inductive Json where
  | null
  | bool (value : Bool)
  | number (lexeme : Bytes)
  | string (value : String)
  | array (items : List Json)
  | object (members : List (String × Json))

namespace Json

/-! ### Whitespace -/

def isWs (byte : UInt8) : Bool := byte = 32 || byte = 9 || byte = 13 || byte = 10

def Blank (bytes : Bytes) : Prop := ∀ byte ∈ bytes, isWs byte = true

/-! ### Numbers -/

def isDigit (byte : UInt8) : Bool := 48 ≤ byte && byte ≤ 57

/-- The bytes a number is made of. -/
def isNumberByte (byte : UInt8) : Bool :=
  isDigit byte || byte = 43 || byte = 45 || byte = 46 || byte = 69 || byte = 101

/-- The number a run of digits stands for. -/
def digitsValue (digits : Bytes) : Nat :=
  digits.foldl (fun value digit => value * 10 + (digit.toNat - 48)) 0

/-- A number in its parts. A fraction has at least one digit. -/
structure NumberParts where
  negative : Bool
  (integer fraction : Bytes)
  exponent : Option Int

/-- Digits, at least one. -/
def digits1 (bytes : Bytes) : Bool := !bytes.isEmpty && bytes.all isDigit

/-- The digits of an integer: no zero in front. -/
def integerDigits (bytes : Bytes) : Bool :=
  digits1 bytes && (bytes.length = 1 || bytes.head? != some 48)

/-- The exponent, after the letter. -/
def exponentParts : Bytes → Option Int
  | [] => none
  | byte :: rest =>
    if byte = 43 then if digits1 rest then some (digitsValue rest) else none
    else if byte = 45 then if digits1 rest then some (-digitsValue rest) else none
    else if digits1 (byte :: rest) then some (digitsValue (byte :: rest)) else none

/-- What may follow the digits of the integer and of the fraction. -/
def exponentTail : Bytes → Option (Option Int)
  | [] => some none
  | byte :: rest =>
    if byte = 69 ∨ byte = 101 then (exponentParts rest).map some else none

/-- A number without its sign. -/
def unsignedParts (negative : Bool) (bytes : Bytes) : Option NumberParts :=
  let integer := bytes.takeWhile isDigit
  let rest := bytes.dropWhile isDigit
  if integerDigits integer then
    match rest with
    | [] => some ⟨negative, integer, [], none⟩
    | byte :: rest =>
      if byte = 46 then
        let fraction := rest.takeWhile isDigit
        if fraction.isEmpty then none
        else (exponentTail (rest.dropWhile isDigit)).map (NumberParts.mk negative integer fraction)
      else (exponentTail (byte :: rest)).map (NumberParts.mk negative integer [])
  else none

/-- The parts of a number. -/
def numberParts : Bytes → Option NumberParts
  | [] => none
  | byte :: rest => if byte = 45 then unsignedParts true rest else unsignedParts false (byte :: rest)

def isNumber (lexeme : Bytes) : Bool :=
  lexeme.all isNumberByte && (numberParts lexeme).isSome

/-- The number that is written. -/
def NumberParts.value (parts : NumberParts) : ℚ :=
  (if parts.negative then -1 else 1) *
    digitsValue (parts.integer ++ parts.fraction) *
    (10 : ℚ) ^ (parts.exponent.getD 0 - parts.fraction.length)

/-! ### Strings -/

/-- The characters with an escape of their own. -/
def escapes : List (Char × UInt8) :=
  [('\x22', 34), ('\x5c', 92), ('/', 47), ('\x08', 98), ('\x0c', 102), ('\n', 110), ('\r', 114), ('\t', 116)]

def hexValue (byte : UInt8) : Option Nat :=
  if 48 ≤ byte ∧ byte ≤ 57 then some (byte.toNat - 48)
  else if 97 ≤ byte ∧ byte ≤ 102 then some (byte.toNat - 87)
  else if 65 ≤ byte ∧ byte ≤ 70 then some (byte.toNat - 55)
  else none

/-- Four hexadecimal digits. -/
def hex4 (a b c d : UInt8) : Option Nat := do
  return (((← hexValue a) * 16 + (← hexValue b)) * 16 + (← hexValue c)) * 16 + (← hexValue d)

/-- The character of a surrogate pair. -/
def surrogates (high low : Nat) : Nat := 0x10000 + (high - 0xD800) * 0x400 + (low - 0xDC00)

/-- The texts of a character inside of a string. -/
inductive CharText : Char → Bytes → Prop
  | plain {c : Char} (hcontrol : 0x20 ≤ c.toNat) (hquote : c ≠ '\x22') (hslash : c ≠ '\x5c') :
      CharText c (String.utf8EncodeChar c)
  | escaped {c : Char} {byte : UInt8} (hmem : (c, byte) ∈ escapes) : CharText c [92, byte]
  | unicode {c : Char} {x y z w : UInt8} (hhex : hex4 x y z w = some c.toNat) :
      CharText c [92, 117, x, y, z, w]
  | pair {c : Char} {x y z w x' y' z' w' : UInt8} {high low : Nat}
      (hhigh : hex4 x y z w = some high) (hlow : hex4 x' y' z' w' = some low)
      (hhighRange : 0xD800 ≤ high ∧ high ≤ 0xDBFF) (hlowRange : 0xDC00 ≤ low ∧ low ≤ 0xDFFF)
      (hvalue : c.toNat = surrogates high low) :
      CharText c [92, 117, x, y, z, w, 92, 117, x', y', z', w']

/-- The texts of the characters of a string. -/
def CharsText : List Char → Bytes → Prop
  | [], bytes => bytes = []
  | c :: cs, bytes => ∃ first rest, bytes = first ++ rest ∧ CharText c first ∧ CharsText cs rest

def StringText (value : String) (bytes : Bytes) : Prop :=
  ∃ body, bytes = 34 :: (body ++ [34]) ∧ CharsText value.toList body

/-! ### Values -/

def nullText : Bytes := [110, 117, 108, 108]

def boolText : Bool → Bytes
  | true => [116, 114, 117, 101]
  | false => [102, 97, 108, 115, 101]

mutual

/-- The texts of a value. -/
def Text : Json → Bytes → Prop
  | .null, bytes => bytes = nullText
  | .bool value, bytes => bytes = boolText value
  | .number lexeme, bytes => bytes = lexeme ∧ isNumber lexeme = true
  | .string value, bytes => StringText value bytes
  | .array items, bytes => ∃ inner, bytes = 91 :: (inner ++ [93]) ∧ ItemsText items inner
  | .object members, bytes => ∃ inner, bytes = 123 :: (inner ++ [125]) ∧ MembersText members inner

/-- The texts between the brackets of an array. -/
def ItemsText : List Json → Bytes → Prop
  | [], bytes => Blank bytes
  | x :: xs, bytes => ∃ before text after, Blank before ∧ Blank after ∧ Text x text ∧
    ((xs = [] ∧ bytes = before ++ (text ++ after)) ∨
      ∃ more, xs ≠ [] ∧ bytes = before ++ (text ++ (after ++ 44 :: more)) ∧ ItemsText xs more)

/-- The texts between the braces of an object. -/
def MembersText : List (String × Json) → Bytes → Prop
  | [], bytes => Blank bytes
  | (name, x) :: xs, bytes => ∃ before key middle colon text after, Blank before ∧ Blank middle ∧
    Blank colon ∧ Blank after ∧ StringText name key ∧ Text x text ∧
    ((xs = [] ∧ bytes = before ++ (key ++ (middle ++ 58 :: (colon ++ (text ++ after))))) ∨
      ∃ more, xs ≠ [] ∧
        bytes = before ++ (key ++ (middle ++ 58 :: (colon ++ (text ++ (after ++ 44 :: more))))) ∧
        MembersText xs more)

end

/-- The texts that consist of one value, with whitespace around it. -/
def Document (value : Json) (bytes : Bytes) : Prop :=
  ∃ before text after, Blank before ∧ Blank after ∧ Text value text ∧ bytes = before ++ (text ++ after)

mutual

/-- How deep arrays and objects are nested. -/
def depth : Json → Nat
  | .null => 0
  | .bool _ => 0
  | .number _ => 0
  | .string _ => 0
  | .array items => itemsDepth items + 1
  | .object members => membersDepth members + 1

def itemsDepth : List Json → Nat
  | [] => 0
  | x :: xs => max (depth x) (itemsDepth xs)

def membersDepth : List (String × Json) → Nat
  | [] => 0
  | (_, x) :: xs => max (depth x) (membersDepth xs)

end

end Json
end Termivar
