import DepSpec.Text.Visible

set_option autoImplicit false

/-! # Quoted text

The form in which a message shows a text it was given: in double quotes, with quotes and
backslashes escaped, line breaks, tabs and the null character by their letters, and every other
hidden character by its code point. -/

namespace DepSpec.Text

/-- How one character stands inside the quotes. -/
def quotedChar (c : Char) : List Char :=
  if c == '"' then ['\\', '"']
  else if c == '\\' then ['\\', '\\']
  else if c == '\n' then ['\\', 'n']
  else if c == '\r' then ['\\', 'r']
  else if c == '\t' then ['\\', 't']
  else if c == '\x00' then ['\\', '0']
  else if isVisible c then [c]
  else ['\\', 'u', '\x7b'] ++ Nat.toDigits 16 c.toNat ++ ['\x7d']

/-- The text in quotes. -/
def quoted (text : String) : String :=
  String.ofList ('"' :: text.toList.flatMap quotedChar ++ ['"'])

end DepSpec.Text
