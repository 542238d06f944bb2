import DepSpec.Text.Utf8
import DepSpec.Version.Basic
import DepSpec.Version.Token

set_option autoImplicit false

/-! # Partial and loose versions

A partial version has one to three parts, each a number or a wildcard: `1`, `1.x`, `1.2.3-rc`.
Reading one takes two steps. `PartialText` is the text cut into its parts, the loose grammar;
`Partial` is what the parts denote. A wildcard makes everything behind it disappear, so there are
four shapes. A number that is no 64-bit word makes the whole partial version meaningless, also
where a wildcard stands before it.

A loose version is a partial version with all three parts numbers, in a text of at most
`maxLooseBytes` bytes. -/

namespace DepSpec

open Text

/-! ## Parts -/

/-- One part of a partial version as it is written. -/
inductive Part where
  | wildcard
  | digits (ds : List Char)
  deriving Repr, DecidableEq

/-- The longest part that the text begins with, and what follows it. -/
def Part.read? : List Char → Option (Part × List Char)
  | [] => none
  | c :: cs =>
    if c == 'x' || c == 'X' || c == '*' then some (.wildcard, cs)
    else if isDecimalDigit c then
      some (.digits (c :: cs.takeWhile isDecimalDigit), cs.dropWhile isDecimalDigit)
    else none

/-- What a part denotes: nothing for a wildcard, the word of a number. Digits outside ASCII and
    numbers that fit no word denote nothing at all. -/
def Part.value? : Part → Option (Option UInt64)
  | .wildcard => some none
  | .digits ds => (readWord? ds).map some

/-! ## Prerelease and build -/

/-- A loose prerelease: the hyphen in front may be missing. It belongs to the first identifier
    when the text behind it is no identifier list, as in `1.2.3-`. -/
def readPrerelease? : List Char → Option (List (List Char))
  | [] => some []
  | '-' :: cs =>
    match readTokens? isLooseToken cs with
    | some tokens => some tokens
    | none => readTokens? isLooseToken ('-' :: cs)
  | cs => readTokens? isLooseToken cs

/-- The prerelease and build behind the third part. -/
def readSuffix? (cs : List Char) : Option (List (List Char) × List (List Char)) := do
  let (front, build) ← readBuild? cs
  let prerelease ← readPrerelease? front
  some (prerelease, build)

/-! ## The text of a partial version -/

/-- A partial version cut into its parts; prerelease and build stand behind a third part only. -/
structure PartialText where
  major : Part
  minor : Option Part := none
  patch : Option Part := none
  prerelease : List (List Char) := []
  build : List (List Char) := []
  deriving Repr, DecidableEq

namespace PartialText

/-- The third part with what follows it. The part is as long as it can be; only if the text behind
    it is no prerelease does a number give up its last digit to one, so that `1.2.34.5` reads as
    `1.2.3` with the prerelease `4.5`. -/
def readPatch? (cs : List Char) : Option (Part × List (List Char) × List (List Char)) := do
  let (part, rest) ← Part.read? cs
  match readSuffix? rest, part with
  | some suffix, _ => some (part, suffix)
  | none, .wildcard => none
  | none, .digits ds =>
    match ds.dropLast, ds.getLast? with
    | d :: front, some last =>
      (readSuffix? (last :: rest)).map fun suffix => (.digits (d :: front), suffix)
    | _, _ => none

/-- The parts of a text without lead characters. -/
def ofParts? (cs : List Char) : Option PartialText := do
  let (major, rest) ← Part.read? cs
  match rest with
  | [] => some { major := major }
  | '.' :: rest => do
    let (minor, rest) ← Part.read? rest
    match rest with
    | [] => some { major := major, minor := some minor }
    | '.' :: rest => do
      let (patch, prerelease, build) ← readPatch? rest
      some { major := major, minor := some minor, patch := some patch,
             prerelease := prerelease, build := build }
    | _ => none
  | _ => none

/-- The characters that may stand in any number before a partial version. -/
def isLead (c : Char) : Bool := c == 'v' || c == '=' || isBlank c

/-- The parts of a text. -/
def ofChars? (cs : List Char) : Option PartialText := ofParts? (cs.dropWhile isLead)

end PartialText

/-! ## What it denotes -/

/-- A partial version: nothing fixed, the major number, major and minor, or a full version. -/
inductive Partial where
  | any
  | major (major : UInt64)
  | minor (major minor : UInt64)
  | full (version : Version)
  deriving Repr, DecidableEq

/-- The value of a part that may be missing. -/
def Part.optionalValue? : Option Part → Option (Option UInt64)
  | none => some none
  | some part => part.value?

/-- What the parts denote together. -/
def PartialText.value? (t : PartialText) : Option Partial := do
  let major ← t.major.value?
  let minor ← Part.optionalValue? t.minor
  let patch ← Part.optionalValue? t.patch
  match major, minor, patch with
  | none, _, _ => some .any
  | some major, none, _ => some (.major major)
  | some major, some minor, none => some (.minor major minor)
  | some major, some minor, some patch =>
    some (.full { major := major, minor := minor, patch := patch,
                  prerelease := t.prerelease.map Identifier.ofToken,
                  build := t.build.map Identifier.ofToken })

/-! ## Loose versions -/

/-- The most bytes a loose version may have, surrounding blanks included. -/
def maxLooseBytes : Nat := 256

/-- The single full version that a text denotes in the loose grammar. -/
def Version.parseLoose? (text : String) : Option Version :=
  if maxLooseBytes < byteLength text.toList then none
  else match (PartialText.ofChars? (trim text.toList)).bind PartialText.value? with
    | some (.full v) => some v
    | _ => none

end DepSpec
