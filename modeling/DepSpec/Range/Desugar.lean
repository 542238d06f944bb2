import DepSpec.Range.Basic
import DepSpec.Version.Partial

set_option autoImplicit false

/-! # Ranges as bounds

What carets, tildes, operators on partial versions and hyphen ranges stand for: one or two plain
clauses, usually a lower bound and an exclusive upper one. The upper bound is the successor of a
part; where that part is the last word there is none, and the range has no meaning. -/

namespace DepSpec

open Text

/-! ## Versions that bounds are made of -/

namespace Version

/-- A version of three numbers. -/
def release (major minor patch : UInt64) : Version :=
  { major := major, minor := minor, patch := patch }

/-- The version without its build. -/
def withoutBuild (v : Version) : Version := { v with build := [] }

/-- The next major release. -/
def nextMajor? (major : UInt64) : Option Version :=
  (nextWord? major).map fun next => release next 0 0

/-- The next minor release. -/
def nextMinor? (major minor : UInt64) : Option Version :=
  (nextWord? minor).map fun next => release major next 0

/-- The next patch release. -/
def nextPatch? (major minor patch : UInt64) : Option Version :=
  (nextWord? patch).map fun next => release major minor next

end Version

/-- From `lower` on, below `upper`. -/
def between (lower upper : Version) : List Clause :=
  [.compare .gte lower, .compare .lt upper]

/-! ## Partial versions as ranges -/

namespace Partial

/-- `^p`: changes that leave the left-most nonzero part alone. -/
def caret? : Partial → Option (List Clause)
  | .any => some [.any]
  | .major a => (Version.nextMajor? a).map (between (.release a 0 0))
  | .minor a b =>
    (if a = 0 then Version.nextMinor? 0 b else Version.nextMajor? a).map
      (between (.release a b 0))
  | .full v =>
    (if v.major ≠ 0 then Version.nextMajor? v.major
      else if v.minor ≠ 0 then Version.nextMinor? 0 v.minor
      else Version.nextPatch? 0 0 v.patch).map (between v.withoutBuild)

/-- `~p`: changes of the patch number if a minor number is given, else of the minor number. -/
def tilde? : Partial → Option (List Clause)
  | .any => some [.any]
  | .major a => (Version.nextMajor? a).map (between (.release a 0 0))
  | .minor a b => (Version.nextMinor? a b).map (between (.release a b 0))
  | .full v => (Version.nextMinor? v.major v.minor).map (between v.withoutBuild)

/-- The least release that a partial version with a fixed major number covers. -/
def least (a : UInt64) (b : Option UInt64) : Version := .release a (b.getD 0) 0

/-- The least release above all those that a partial version covers. -/
def above? (a : UInt64) : Option UInt64 → Option Version
  | none => Version.nextMajor? a
  | some b => Version.nextMinor? a b

/-- An operator on a partial version that fixes the major number and perhaps the minor one: the
    releases it covers count as one point. -/
def comparePart? (op : Operator) (a : UInt64) (b : Option UInt64) : Option (List Clause) :=
  match op with
  | .eq => (above? a b).map (between (least a b))
  | .gt => (above? a b).map fun v => [.compare .gte v]
  | .gte => some [.compare .gte (least a b)]
  | .lt => some [.compare .lt (least a b)]
  | .lte => (above? a b).map fun v => [.compare .lt v]

/-- An operator on a partial version. Nothing is above or below every version, which the bound
    below zero says. -/
def compare? (op : Operator) : Partial → Option (List Clause)
  | .any =>
    match op with
    | .gt | .lt => some [.compare .lt (.release 0 0 0)]
    | _ => some [.any]
  | .major a => comparePart? op a none
  | .minor a b => comparePart? op a (some b)
  | .full v => some [.compare op v]

/-- The lower end of a hyphen range. -/
def lowerEnd : Partial → List Clause
  | .any => []
  | .major a => [.compare .gte (.release a 0 0)]
  | .minor a b => [.compare .gte (.release a b 0)]
  | .full v => [.compare .gte v]

/-- The upper end of a hyphen range: what a partial version covers is still inside. A prerelease
    end loses its build. -/
def upperEnd? : Partial → Option (List Clause)
  | .any => some []
  | .major a => (Version.nextMajor? a).map fun v => [.compare .lt v]
  | .minor a b => (Version.nextMinor? a b).map fun v => [.compare .lt v]
  | .full v => some [.compare .lte (if v.prerelease = [] then v else v.withoutBuild)]

/-- `p - q`: from `p` to `q`, both included. -/
def hyphen? (lower upper : Partial) : Option (List Clause) :=
  upper.upperEnd?.map fun ends =>
    if lower.lowerEnd ++ ends = [] then [.any] else lower.lowerEnd ++ ends

end Partial

end DepSpec
