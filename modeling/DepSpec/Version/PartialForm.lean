import DepSpec.Version.Partial
import DepSpec.Version.Precedence

set_option autoImplicit false

/-! # The texts of partial versions

Which texts are partial versions, and of which one, said of the pieces that a text is put together
from: parts, then the identifiers of a prerelease, then those of a build. A part is a wildcard or a
numeral whose value fits a word. What stands behind the first wildcard counts as absent. -/

namespace DepSpec

open Text

/-! ## Parts -/

/-- The text of a part and what it denotes. -/
inductive Part.Spells : List Char → Option UInt64 → Prop
  | wildcard {c : Char} (hc : c = 'x' ∨ c = 'X' ∨ c = '*') : Spells [c] none
  | number {ds : List Char} {n : UInt64} (hne : ds ≠ []) (hdigits : ∀ c ∈ ds, c.isDigit = true)
      (hvalue : numeralValue ds = n.toNat) : Spells ds (some n)

/-! ## Prereleases -/

/-- The text of the prerelease behind a third part and its identifiers. A hyphen leads it, which may
    be missing unless a digit follows a number. The number still gives up its last digit when
    nothing else is left for the first identifier, as in `1.2.34.5`; and a hyphen without an
    identifier behind it is one itself. -/
inductive SpellsPrerelease (afterNumber : Bool) : List Char → List (List Char) → Prop
  | none : SpellsPrerelease afterNumber [] []
  | hyphen {first : List Char} {rest : List (List Char)}
      (h : ∀ t ∈ first :: rest, isLooseToken t = true) :
      SpellsPrerelease afterNumber ('-' :: (first ++ dotted '.' rest)) (first :: rest)
  | bare {c : Char} {cs : List Char} {rest : List (List Char)}
      (h : ∀ t ∈ (c :: cs) :: rest, isLooseToken t = true) (hhyphen : c ≠ '-')
      (hdigit : afterNumber = true → isDecimalDigit c = false) :
      SpellsPrerelease afterNumber (c :: cs ++ dotted '.' rest) ((c :: cs) :: rest)
  | lone {rest : List (List Char)} (h : ∀ t ∈ rest, isLooseToken t = true) :
      SpellsPrerelease afterNumber ('-' :: dotted '.' rest) (['-'] :: rest)
  | givenUp {d : Char} {rest : List (List Char)} (hnumber : afterNumber = true)
      (hd : isDecimalDigit d = true) (hne : rest ≠ []) (h : ∀ t ∈ rest, isLooseToken t = true) :
      SpellsPrerelease afterNumber (d :: dotted '.' rest) ([d] :: rest)

/-! ## Partial versions -/

namespace Partial

/-- What up to three parts denote together. -/
def ofParts (parts : List (Option UInt64)) (prerelease build : List (List Char)) : Partial :=
  match (parts.takeWhile Option.isSome).filterMap id with
  | [] => .any
  | [a] => .major a
  | [a, b] => .minor a b
  | a :: b :: c :: _ =>
    .full { major := a, minor := b, patch := c,
            prerelease := prerelease.map Identifier.ofToken,
            build := build.map Identifier.ofToken }

/-- The text of a partial version without lead characters. -/
inductive SpellsParts : List Char → Partial → Prop
  | one {m : List Char} {a : Option UInt64} (hm : Part.Spells m a) :
      SpellsParts m (ofParts [a] [] [])
  | two {m n : List Char} {a b : Option UInt64} (hm : Part.Spells m a) (hn : Part.Spells n b) :
      SpellsParts (m ++ '.' :: n) (ofParts [a, b] [] [])
  | three {m n p pre : List Char} {a b c : Option UInt64} {prerelease build : List (List Char)}
      (hm : Part.Spells m a) (hn : Part.Spells n b) (hp : Part.Spells p c)
      (hpre : SpellsPrerelease c.isSome pre prerelease)
      (hbuild : ∀ t ∈ build, isBuildToken t = true) :
      SpellsParts (m ++ '.' :: n ++ '.' :: p ++ pre ++ dotted '+' build)
        (ofParts [a, b, c] prerelease build)

/-- The text of a partial version: characters `v` and `=`, any number of them, then its parts. -/
def Spells (cs : List Char) (p : Partial) : Prop :=
  ∃ lead parts, cs = lead ++ parts ∧ (∀ c ∈ lead, c = 'v' ∨ c = '=') ∧ SpellsParts parts p

end Partial

end DepSpec
