import DepSpec.Text.Numeral

set_option autoImplicit false

/-! # JSON values and their text

A JSON value keeps the literal of a number, since only whole numbers are ever asked for and their
size is not bounded here, and the order of an object's fields. A string literal may escape one
half of a surrogate pair without the other; it is well-formed JSON but denotes no text, which
`none` says.

The text of a value has no blanks. Quotes, backslashes and controls are escaped, all other
characters stand for themselves. -/

namespace DepSpec

open Text

/-- A JSON value. -/
inductive Json where
  | null
  | bool (b : Bool)
  | number (literal : List Char)
  | string (text : Option String)
  | array (items : List Json)
  | object (fields : List (Option String × Json))
  deriving Repr

namespace Json

/-! ## Making values -/

/-- A string value. -/
def ofText (s : String) : Json := .string (some s)

/-- A word as a number. -/
def ofWord (w : UInt64) : Json := .number (writeWord w)

/-- An object with named fields. -/
def record (fields : List (String × Json)) : Json :=
  .object (fields.map fun (name, value) => (some name, value))

/-- An object with a single field, the form of a variant that carries a value. -/
def variant (name : String) (value : Json) : Json := record [(name, value)]

/-! ## Writing -/

/-- A hexadecimal digit, in small letters. -/
def hexDigit (n : Nat) : Char := Nat.digitChar n

/-- How a character stands in a string literal. -/
def escapeChar (c : Char) : List Char :=
  if c == '"' then ['\\', '"']
  else if c == '\\' then ['\\', '\\']
  else if c == '\x08' then ['\\', 'b']
  else if c == '\x0c' then ['\\', 'f']
  else if c == '\n' then ['\\', 'n']
  else if c == '\r' then ['\\', 'r']
  else if c == '\t' then ['\\', 't']
  else if c.toNat < 0x20 then
    ['\\', 'u', '0', '0', hexDigit (c.toNat / 16), hexDigit (c.toNat % 16)]
  else [c]

/-- The literal of a text. -/
def stringChars (s : String) : List Char := '"' :: s.toList.flatMap escapeChar ++ ['"']

/-- The literal of a string value. One that denotes no text is written as a lone surrogate. -/
def literalChars : Option String → List Char
  | some s => stringChars s
  | none => "\"\\ud800\"".toList

mutual

/-- The text of a value. -/
def chars : Json → List Char
  | .null => "null".toList
  | .bool true => "true".toList
  | .bool false => "false".toList
  | .number literal => literal
  | .string text => literalChars text
  | .array [] => ['[', ']']
  | .array (item :: items) => '[' :: item.chars ++ moreItems items
  | .object [] => ['\x7b', '\x7d']
  | .object ((name, value) :: fields) =>
    '\x7b' :: literalChars name ++ ':' :: value.chars ++ moreFields fields

/-- The text of an array behind its first item. -/
def moreItems : List Json → List Char
  | [] => [']']
  | item :: items => ',' :: item.chars ++ moreItems items

/-- The text of an object behind its first field. -/
def moreFields : List (Option String × Json) → List Char
  | [] => ['\x7d']
  | (name, value) :: fields =>
    ',' :: literalChars name ++ ':' :: value.chars ++ moreFields fields

end

/-- The text of a value. -/
def text (v : Json) : String := String.ofList v.chars

end Json

end DepSpec
