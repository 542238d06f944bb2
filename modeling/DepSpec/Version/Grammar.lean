import DepSpec.Version.Strict

set_option autoImplicit false

/-! # The grammar of semantic versions

Which texts are semantic versions, said of the pieces that a text is put together from. A
`StrictText` is canonical if its numbers and identifiers are what the grammar allows, and
`StrictText.chars` puts it together. -/

namespace DepSpec

open Text

namespace StrictText

/-- A numeric identifier: ASCII digits that do not begin with a zero, or the zero alone. -/
def IsNumeric (cs : List Char) : Prop :=
  cs ≠ [] ∧ (∀ c ∈ cs, c.isDigit = true) ∧ (cs.head? = some '0' → cs = ['0'])

/-- An alphanumeric identifier: ASCII letters, digits and hyphens, and not digits alone. -/
def IsAlphanumeric (cs : List Char) : Prop :=
  (∀ c ∈ cs, isIdentifierChar c = true) ∧ ∃ c ∈ cs, c.isDigit = false

/-- A build identifier: ASCII letters, digits and hyphens. -/
def IsBuild (cs : List Char) : Prop := cs ≠ [] ∧ ∀ c ∈ cs, isIdentifierChar c = true

/-- The pieces of a semantic version. -/
structure IsCanonical (t : StrictText) : Prop where
  major : IsNumeric t.major
  minor : IsNumeric t.minor
  patch : IsNumeric t.patch
  prerelease : ∀ token ∈ t.prerelease, IsNumeric token ∨ IsAlphanumeric token
  build : ∀ token ∈ t.build, IsBuild token

/-- The text of a version in pieces. -/
def chars (t : StrictText) : List Char :=
  t.major ++ '.' :: t.minor ++ '.' :: t.patch ++ dotted '-' t.prerelease ++ dotted '+' t.build

end StrictText

/-- The version records that semantic versions lead to: prerelease texts are alphanumeric, since a
    numeral would be an integer, and build identifiers are not empty. -/
structure VersionRecord.IsCanonical (v : VersionRecord) : Prop where
  prerelease : ∀ s, PrereleaseId.text s ∈ v.prerelease → StrictText.IsAlphanumeric s.toList
  build : ∀ s ∈ v.build, StrictText.IsBuild s.toList

end DepSpec
