import DepSpec.Range.Basic

set_option autoImplicit false

/-! # Writing ranges

The text of a range as parsed: every clause as its operator and its version, a star for any
version, blanks between clauses and bars between groups. -/

namespace DepSpec

namespace Clause

/-- The characters of a clause. -/
def chars (c : Clause) : List Char :=
  c.operator.toList ++ match c.bound with
    | .any => ['*']
    | .version v => v.record.chars

end Clause

namespace ParsedRange

/-- The characters of a group. -/
def groupChars (group : List Clause) : List Char := [' '].intercalate (group.map Clause.chars)

/-- The text of a range. -/
def text (range : ParsedRange) : String :=
  String.ofList (" || ".toList.intercalate (range.map groupChars))

end ParsedRange

end DepSpec
