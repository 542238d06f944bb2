import DepSpec.Text.Numeral

set_option autoImplicit false

/-! # Versions

A version exists in two forms. `Version` is what a parser reads: its identifiers carry the kind
the parser gave them. `VersionRecord` is what is sent: a prerelease identifier is an integer
exactly when its token is a numeral that fits a word, so that the reader can order identifiers
without looking at their text again, and build identifiers are plain text. `Version.record` goes
from one to the other, and `VersionRecord.text` writes the usual `1.2.3-rc.1+sha`. -/

namespace DepSpec

open Text

/-! ## As parsed -/

/-- An identifier of a prerelease or build list, with the kind its parser gave it. -/
inductive Identifier where
  | numeric (n : UInt64)
  | alphanumeric (text : String)
  deriving Repr, DecidableEq

/-- A numeral that fits a word is numeric, any other token is alphanumeric. -/
def Identifier.ofToken (token : List Char) : Identifier :=
  match readWord? token with
  | some n => .numeric n
  | none => .alphanumeric (String.ofList token)

/-- A version as a parser reads it. -/
structure Version where
  major : UInt64
  minor : UInt64
  patch : UInt64
  prerelease : List Identifier := []
  build : List Identifier := []
  deriving Repr, DecidableEq

/-! ## As sent -/

/-- A prerelease identifier with its kind recorded. -/
inductive PrereleaseId where
  | int (n : UInt64)
  | text (s : String)
  deriving Repr, DecidableEq

/-- The kind of a token: an integer exactly when it is a numeral that fits a word. -/
def PrereleaseId.ofToken (token : String) : PrereleaseId :=
  match readWord? token.toList with
  | some n => .int n
  | none => .text token

/-- The token of a prerelease identifier. -/
def PrereleaseId.token : PrereleaseId → List Char
  | .int n => writeWord n
  | .text s => s.toList

/-- A version as it is sent. -/
structure VersionRecord where
  major : UInt64
  minor : UInt64
  patch : UInt64
  prerelease : List PrereleaseId := []
  build : List String := []
  deriving Repr, DecidableEq

/-- Identifiers behind a lead character, with dots between them; no identifiers leave no trace. -/
def dotted (lead : Char) : List (List Char) → List Char
  | [] => []
  | token :: tokens => lead :: token ++ dotted '.' tokens

/-- The characters of a version: numbers, then `-` and the prerelease, then `+` and the build. -/
def VersionRecord.chars (v : VersionRecord) : List Char :=
  writeWord v.major ++ '.' :: writeWord v.minor ++ '.' :: writeWord v.patch ++
    dotted '-' (v.prerelease.map PrereleaseId.token) ++ dotted '+' (v.build.map String.toList)

/-- A version as text. -/
def VersionRecord.text (v : VersionRecord) : String := String.ofList v.chars

/-! ## From one to the other -/

/-- Numeric identifiers stay integers; the token of any other is looked at again. -/
def Identifier.prereleaseId : Identifier → PrereleaseId
  | .numeric n => .int n
  | .alphanumeric s => PrereleaseId.ofToken s

/-- The text of an identifier. -/
def Identifier.text : Identifier → String
  | .numeric n => String.ofList (writeWord n)
  | .alphanumeric s => s

/-- A parsed version as it is sent. -/
def Version.record (v : Version) : VersionRecord :=
  { major := v.major, minor := v.minor, patch := v.patch,
    prerelease := v.prerelease.map Identifier.prereleaseId,
    build := v.build.map Identifier.text }

/-- A token gets the same kind on both ways to the record. -/
theorem Identifier.prereleaseId_ofToken (token : List Char) :
    (Identifier.ofToken token).prereleaseId = PrereleaseId.ofToken (String.ofList token) := by
  cases h : readWord? token <;> simp [ofToken, prereleaseId, PrereleaseId.ofToken, h]

end DepSpec
