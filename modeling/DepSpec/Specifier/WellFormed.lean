import DepSpec.Resolution.Resolve
import DepSpec.Specifier.Basic

set_option autoImplicit false

/-! # Well-formed specifiers

What the rules of npm promise about a classified specifier, said of the specifier alone. -/

namespace DepSpec

open Text

/-- No group is missing or empty, and none makes others idle. -/
def Constraint.WellFormed (range : Constraint) : Prop :=
  range ≠ [] ∧ (∀ group ∈ range, group ≠ []) ∧ (2 ≤ range.length → [Comparator.any] ∉ range)

/-- A text that can be a tag: characters that a URI component leaves alone, and neither a version
    nor a range. -/
def IsTag (name : String) : Prop :=
  name ≠ "" ∧ name.toList.all isUriSafe = true ∧ Version.parseLoose? name = none ∧
    ParsedRange.parse? name = none

/-- The target of an alias is a tag or a range. -/
def AliasTarget.WellFormed : AliasTarget → Prop
  | .tag name => IsTag name
  | .range r => Constraint.WellFormed r

/-- A specifier that the rules of npm can lead to. -/
def Specifier.WellFormed : Specifier → Prop
  | .git url => url ≠ ""
  | .range r => Constraint.WellFormed r
  | .tag name => IsTag name
  | .file path => Resolution.isTarball path.toList = true
  | .directory path => Resolution.isTarball path.toList = false
  | .remote _ => True
  | .alias name registry target =>
    registry = none ∧ PackageName.isValid name.toList = true ∧ target.WellFormed

end DepSpec
