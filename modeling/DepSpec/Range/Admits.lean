import DepSpec.Range.Basic
import DepSpec.Version.Precedence

set_option autoImplicit false

/-! # What a range admits

A version meets a comparator if it stands to the bound, in the order of precedence, as the operator
says. It meets a group if it meets every comparator of the group, and a range if it meets one of
the groups. -/

namespace DepSpec

/-- Whether an operator holds of two versions that compare like this. -/
def Operator.holds : Operator → Ordering → Bool
  | .eq, order => order == .eq
  | .gt, order => order == .gt
  | .gte, order => order != .lt
  | .lt, order => order == .lt
  | .lte, order => order != .gt

/-- The precedence of parsed versions. -/
def Version.precedence (v w : Version) : Ordering := v.record.precedence w.record

/-- Whether a version meets a clause. The mark for any version is always met, and an operator
    outside the vocabulary never. -/
def Clause.admits (c : Clause) (v : Version) : Bool :=
  match c.bound, Operator.ofSymbol? c.operator with
  | .any, _ => true
  | .version w, some op => op.holds (v.precedence w)
  | .version _, none => false

/-- Whether a version meets all clauses of a group. -/
def groupAdmits (group : List Clause) (v : Version) : Bool := group.all (·.admits v)

/-- Whether a version meets a range. -/
def ParsedRange.admits (range : ParsedRange) (v : Version) : Bool :=
  range.any (groupAdmits · v)

/-- Whether a version meets a comparator as it is sent. -/
def Comparator.admits (c : Comparator) (v : VersionRecord) : Bool :=
  match c with
  | .any => true
  | .compare op w => op.holds (v.precedence w)

/-- Whether a version meets a range as it is sent. -/
def Constraint.admits (range : Constraint) (v : VersionRecord) : Bool :=
  range.any fun group => group.all (·.admits v)

/-- A clause with an operator admits what the operator holds of. -/
theorem Clause.admits_compare (op : Operator) (v w : Version) :
    (Clause.compare op w).admits v = op.holds (v.precedence w) := by
  simp [Clause.admits, Clause.compare, Operator.ofSymbol?_symbol]

end DepSpec
