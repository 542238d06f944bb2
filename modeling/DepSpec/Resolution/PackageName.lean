import DepSpec.Text.Letter
import DepSpec.Text.Split

set_option autoImplicit false

/-! # Package names

The naming rules for packages that exist. They are tried in a fixed order, and a name breaks the
first one that it fails. -/

namespace DepSpec

open Text

/-- The rule that a package name breaks. -/
inductive NameFault where
  | empty
  | leadingPeriod
  | leadingUnderscore
  | surroundingBlanks
  | reserved
  | unsafeChars
  deriving Repr, DecidableEq

def NameFault.reason : NameFault → String
  | .empty => "name length must be greater than zero"
  | .leadingPeriod => "name cannot start with a period"
  | .leadingUnderscore => "name cannot start with an underscore"
  | .surroundingBlanks => "name cannot contain leading or trailing spaces"
  | .reserved => "name is blacklisted"
  | .unsafeChars => "name can only contain URL-friendly characters"

namespace PackageName

/-- The names, in small letters, that no package may have. -/
def reservedNames : List (List Char) := ["node_modules".toList, "favicon.ico".toList]

/-- `@scope/name`, both nonempty and of safe characters. -/
def isScoped (name : List Char) : Bool :=
  match name with
  | '@' :: rest =>
    match splitSlashes rest with
    | [scope, base] =>
      !scope.isEmpty && !base.isEmpty && scope.all isUriSafe && base.all isUriSafe
    | _ => false
  | _ => false

/-- The first rule that the name breaks, if it breaks any. -/
def fault? (name : List Char) : Option NameFault :=
  if name.isEmpty then some .empty
  else if name.head? == some '.' then some .leadingPeriod
  else if name.head? == some '_' then some .leadingUnderscore
  else if trim name != name then some .surroundingBlanks
  else if reservedNames.contains (lowerAscii name) then some .reserved
  else if !(name.all isUriSafe || isScoped name) then some .unsafeChars
  else none

/-- Whether the name breaks no rule. -/
def isValid (name : List Char) : Bool := (fault? name).isNone

end PackageName

end DepSpec
