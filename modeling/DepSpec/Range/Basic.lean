import DepSpec.Version.Basic

set_option autoImplicit false

/-! # Comparators and ranges

A range is a disjunction of groups, a group a conjunction of comparators. As parsed, a comparator
is a `Clause`: an operator in the parser's own spelling and a bound that is a version or the mark
for "any version". As sent, it is a `Comparator` over the five operators that the receiver knows.
`constraint` goes from one to the other clause by clause and stops at the first clause, in reading
order, whose operator is not in the vocabulary. -/

namespace DepSpec

/-! ## Operators -/

/-- The operators that are sent. -/
inductive Operator where
  | eq
  | gt
  | gte
  | lt
  | lte
  deriving Repr, DecidableEq

/-- How a range text spells an operator; equality is spelt by nothing. -/
def Operator.symbol : Operator → String
  | .eq => ""
  | .gt => ">"
  | .gte => ">="
  | .lt => "<"
  | .lte => "<="

/-- The operator with a spelling. -/
def Operator.ofSymbol? : String → Option Operator
  | "" => some .eq
  | ">" => some .gt
  | ">=" => some .gte
  | "<" => some .lt
  | "<=" => some .lte
  | _ => none

theorem Operator.ofSymbol?_symbol (op : Operator) : ofSymbol? op.symbol = some op := by
  cases op <;> rfl

theorem Operator.symbol_of_ofSymbol? {s : String} {op : Operator} (h : ofSymbol? s = some op) :
    op.symbol = s := by
  unfold ofSymbol? at h
  split at h <;> cases h <;> rfl

/-! ## As parsed -/

/-- What a clause compares with: the mark for any version, or a version. -/
inductive Bound where
  | any
  | version (v : Version)
  deriving Repr, DecidableEq

/-- A comparator as a range parser gives it. The operator is open text, so that an operator
    unknown to the receiver can be told. -/
structure Clause where
  operator : String
  bound : Bound
  deriving Repr, DecidableEq

namespace Clause

/-- The clause that any version meets. -/
def any : Clause := ⟨"", .any⟩

/-- The clause that compares with a version. -/
def compare (op : Operator) (v : Version) : Clause := ⟨op.symbol, .version v⟩

end Clause

/-- A range as parsed: the groups of a disjunction, each a conjunction of clauses. -/
abbrev ParsedRange := List (List Clause)

/-! ## As sent -/

/-- A comparator as it is sent. -/
inductive Comparator where
  | any
  | compare (op : Operator) (v : VersionRecord)
  deriving Repr, DecidableEq

/-- A range as it is sent. -/
abbrev Constraint := List (List Comparator)

/-! ## From one to the other -/

/-- A clause as it is sent, or its operator if that is not in the vocabulary. The mark for any
    version takes no operator but the empty one. -/
def Clause.comparator (c : Clause) : Except String Comparator :=
  match c.bound with
  | .any => if c.operator = "" then .ok .any else .error c.operator
  | .version v =>
    match Operator.ofSymbol? c.operator with
    | some op => .ok (.compare op v.record)
    | none => .error c.operator

/-- A range as it is sent, or the first operator that is not in the vocabulary. -/
def ParsedRange.constraint (range : ParsedRange) : Except String Constraint :=
  range.mapM fun group => group.mapM Clause.comparator

end DepSpec
