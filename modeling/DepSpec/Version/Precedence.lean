import DepSpec.Text.Utf8
import DepSpec.Version.Strict

set_option autoImplicit false

/-! # Precedence

Which of two versions comes first. The numbers decide, and where they agree the prerelease: a
version without one comes after all versions with one, and of two prereleases the first identifier
in which they differ decides, a list that runs out first coming first. The build plays no part.

The order is defined twice: on version records, whose identifiers carry their kinds, and on the
text of strict versions, where the characters of an identifier tell its kind. -/

namespace DepSpec

open Text

/-! ## Prereleases -/

/-- The order of prereleases, by the order of their identifiers. No identifiers at all mean no
    prerelease, which comes last. -/
def comparePrereleases {α : Type} (cmp : α → α → Ordering) : List α → List α → Ordering
  | [], [] => .eq
  | [], _ :: _ => .gt
  | _ :: _, [] => .lt
  | ids, others => List.compareLex cmp ids others

/-! ## Version records -/

/-- The order of texts by their bytes. -/
def compareBytes (s t : String) : Ordering :=
  List.compareLex compare (encodeText s.toList) (encodeText t.toList)

/-- Integers come before texts. -/
def PrereleaseId.precedence : PrereleaseId → PrereleaseId → Ordering
  | .int m, .int n => compare m n
  | .int _, .text _ => .lt
  | .text _, .int _ => .gt
  | .text s, .text t => compareBytes s t

/-- The precedence of version records. -/
def VersionRecord.precedence (v w : VersionRecord) : Ordering :=
  (compare v.major w.major).then <| (compare v.minor w.minor).then <|
    (compare v.patch w.patch).then <|
      comparePrereleases PrereleaseId.precedence v.prerelease w.prerelease

/-! ## The text of strict versions -/

/-- The value of a numeral of any length. -/
def numeralValue (cs : List Char) : Nat := Nat.ofDigitChars 10 cs 0

/-- The precedence of identifiers by their characters: all-digit identifiers by their value and
    before the others, the others by their characters. -/
def compareTokens (s t : List Char) : Ordering :=
  match s.all Char.isDigit, t.all Char.isDigit with
  | true, true => compare (numeralValue s) (numeralValue t)
  | true, false => .lt
  | false, true => .gt
  | false, false => List.compareLex compare s t

/-- The precedence of strict versions by their text. -/
def StrictText.precedence (v w : StrictText) : Ordering :=
  (compare (numeralValue v.major) (numeralValue w.major)).then <|
    (compare (numeralValue v.minor) (numeralValue w.minor)).then <|
      (compare (numeralValue v.patch) (numeralValue w.patch)).then <|
        comparePrereleases compareTokens v.prerelease w.prerelease

end DepSpec
