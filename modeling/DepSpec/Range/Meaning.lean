import DepSpec.Range.Admits
import DepSpec.Range.Desugar

set_option autoImplicit false

/-! # The meaning of ranges on partial versions

What carets, tildes, operators and hyphens say of a release, without the bounds that they are
turned into. A partial version stands for the releases that agree with it in the numbers it gives
(`Partial.Covers`). An operator on a full version compares with that version; on any other one it
compares with all the releases that it stands for (`Partial.Meets`). A caret or a tilde asks for
releases that agree in some of the numbers (`Compatibility.fixed`) and are not below the version. -/

namespace DepSpec

/-- The largest word, which has no next one. -/
def Text.maxWord : UInt64 := 18446744073709551615

open Text

/-! ## Partial versions -/

namespace Partial

/-- The numbers that are given. -/
def given : Partial → List UInt64
  | .any => []
  | .major a => [a]
  | .minor a b => [a, b]
  | .full v => [v.major, v.minor, v.patch]

/-- The version itself, with zeros for what is not given. -/
def start : Partial → Version
  | .any => .release 0 0 0
  | .major a => .release a 0 0
  | .minor a b => .release a b 0
  | .full v => v

/-- The releases that agree with the numbers that are given. -/
def Covers (p : Partial) (v : Version) : Prop :=
  ∃ a b c, v = .release a b c ∧ p.given <+: [a, b, c]

end Partial

/-! ## Carets and tildes -/

/-- The numbers up to the left-most one that is not zero; all of them if there is none. -/
def upToNonzero : List UInt64 → List UInt64
  | [] => []
  | n :: ns => if n = 0 then n :: upToNonzero ns else [n]

/-- Two ways to let a version differ from a partial one. -/
inductive Compatibility where
  | caret
  | tilde
  deriving Repr, DecidableEq

namespace Compatibility

/-- How range texts spell them. -/
def symbols : Compatibility → List String
  | .caret => ["^"]
  | .tilde => ["~", "~>"]

/-- The numbers that stay as they are. -/
def fixed : Compatibility → Partial → List UInt64
  | .caret, p => upToNonzero p.given
  | .tilde, p => p.given.take 2

end Compatibility

/-! ## Operators -/

namespace Operator

/-- How range texts spell an operator in front of a version. -/
def symbols : Operator → List String
  | .eq => ["", "="]
  | op => [op.symbol]

/-- Whether an operator needs the first release above all those that a partial version stands for,
    and there is none because the last number that is given is the largest word. -/
def Overflows (op : Operator) (p : Partial) : Prop :=
  (op = .eq ∨ op = .gt ∨ op = .lte) ∧ p.given.length < 3 ∧ p.given.getLast? = some maxWord

end Operator

namespace Partial

/-- What an operator says of a version and the releases that a partial version stands for. -/
def MeetsCovered (p : Partial) (v : Version) : Operator → Prop
  | .eq => p.Covers v
  | .gt => ∀ w, p.Covers w → v.precedence w = .gt
  | .gte => ∃ least, p.Covers least ∧ (∀ w, p.Covers w → w.precedence least ≠ .lt) ∧
      v.precedence least ≠ .lt
  | .lt => ∀ w, p.Covers w → v.precedence w = .lt
  | .lte => ¬ ∀ w, p.Covers w → v.precedence w = .gt

/-- What an operator says of a version and a partial version. -/
def Meets (op : Operator) (p : Partial) (v : Version) : Prop :=
  match p with
  | .full w => op.holds (v.precedence w) = true
  | p => p.MeetsCovered v op

end Partial

end DepSpec
