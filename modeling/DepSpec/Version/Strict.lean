import DepSpec.Text.Quoted
import DepSpec.Version.Basic
import DepSpec.Version.Token

set_option autoImplicit false

/-! # Strict versions

Semantic versions with an optional `v` in front and blanks around: three numbers without leading
zeros, a prerelease behind a hyphen, a build behind a plus sign. A text of this form whose numbers
fit no word is told apart from a text of another form. -/

namespace DepSpec

open Text

/-- Why a text is no strict version. Both say which text it was. -/
inductive VersionError where
  | malformed (input : String)
  | outOfRange (input : String)
  deriving Repr, DecidableEq

def VersionError.message : VersionError → String
  | .malformed input => "invalid semver: " ++ quoted input
  | .outOfRange input => "version component out of range: " ++ quoted input

/-- A strict version cut into its numbers and identifiers. -/
structure StrictText where
  major : List Char
  minor : List Char
  patch : List Char
  prerelease : List (List Char)
  build : List (List Char)
  deriving Repr, DecidableEq

namespace StrictText

/-- The text without one `v` in front. -/
def dropV : List Char → List Char
  | 'v' :: cs => cs
  | cs => cs

/-- What stands before the first hyphen, and the prerelease identifiers behind it. -/
def readPrerelease? (cs : List Char) : Option (List Char × List (List Char)) :=
  match cut? (· == '-') cs with
  | none => some (cs, [])
  | some (front, prerelease) =>
    (readTokens? isStrictToken prerelease).map fun tokens => (front, tokens)

/-- The pieces of a text without blanks around and without a `v` in front. -/
def ofChars? (cs : List Char) : Option StrictText := do
  let (front, build) ← readBuild? cs
  let (core, prerelease) ← readPrerelease? front
  match ← readTokens? isCanonicalNumber core with
  | [major, minor, patch] => some ⟨major, minor, patch, prerelease, build⟩
  | _ => none

/-- The version, if all three numbers fit a word. -/
def value? (t : StrictText) : Option VersionRecord := do
  let major ← readWord? t.major
  let minor ← readWord? t.minor
  let patch ← readWord? t.patch
  some { major := major, minor := minor, patch := patch,
         prerelease := t.prerelease.map fun token => PrereleaseId.ofToken (String.ofList token),
         build := t.build.map String.ofList }

end StrictText

/-- The single version that a text denotes in the strict grammar. -/
def VersionRecord.parse (text : String) : Except VersionError VersionRecord :=
  match StrictText.ofChars? (StrictText.dropV (trim text.toList)) with
  | none => .error (.malformed text)
  | some t =>
    match t.value? with
    | none => .error (.outOfRange text)
    | some v => .ok v

end DepSpec
