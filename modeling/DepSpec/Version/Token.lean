import DepSpec.Text.DecimalDigit
import DepSpec.Text.Letter
import DepSpec.Text.Split

set_option autoImplicit false

/-! # Version identifiers

The tokens between the dots of a prerelease or build list, as predicates. The loose grammar takes
any run of digits as a prerelease identifier; the strict one refuses leading zeros. Both take a
token with a letter or hyphen in it when nothing but digits stands before the first one. A build
identifier is any nonempty run of ASCII letters, digits and hyphens. -/

namespace DepSpec

open Text

/-- An ASCII letter or a hyphen, what makes a token alphanumeric. -/
def isTokenLetter (c : Char) : Bool := c.isAlpha || c == '-'

/-- Digits, then a letter or hyphen, then letters, digits and hyphens. -/
def isAlphanumericToken (token : List Char) : Bool :=
  match token.dropWhile isDecimalDigit with
  | [] => false
  | c :: rest => isTokenLetter c && rest.all isIdentifierChar

/-- A nonempty run of digits. -/
def isDigitToken (token : List Char) : Bool := !token.isEmpty && token.all isDecimalDigit

/-- A run of digits that does not begin with a zero, or the zero alone. -/
def isCanonicalNumber : List Char → Bool
  | [] => false
  | c :: rest => (c == '0' && rest.isEmpty) || ('1' ≤ c && c ≤ '9' && rest.all isDecimalDigit)

/-- A prerelease identifier of the loose grammar. -/
def isLooseToken (token : List Char) : Bool := isDigitToken token || isAlphanumericToken token

/-- A prerelease identifier of the strict grammar. -/
def isStrictToken (token : List Char) : Bool :=
  isCanonicalNumber token || isAlphanumericToken token

/-- A build identifier. -/
def isBuildToken (token : List Char) : Bool := !token.isEmpty && token.all isIdentifierChar

/-- The tokens between the dots, if every one is of the class. -/
def readTokens? (isToken : List Char → Bool) (cs : List Char) : Option (List (List Char)) :=
  if (splitDots cs).all isToken then some (splitDots cs) else none

/-- What stands before the first `+`, and the build identifiers behind it. -/
def readBuild? (cs : List Char) : Option (List Char × List (List Char)) :=
  match cut? (· == '+') cs with
  | none => some (cs, [])
  | some (front, build) => (readTokens? isBuildToken build).map fun tokens => (front, tokens)

end DepSpec
