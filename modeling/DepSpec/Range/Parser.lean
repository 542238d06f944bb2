import DepSpec.Range.Desugar

set_option autoImplicit false

/-! # Reading ranges

A range text is cut at `||` into groups. A group is a hyphen range, or a list of comparators with
blanks between them; blanks may also stand between an operator and its version, and an empty group
means any version. A comparator that the grammar cannot read is dropped, and a group that loses
all of its comparators is dropped with them. A range is valid if a group is left and every number
it needs is a 64-bit word. A group that means any version takes the place of all of them. -/

namespace DepSpec

open Text

/-! ## Groups -/

/-- The pieces between the `||`, found from the left. -/
def splitBars : List Char → List (List Char)
  | [] => [[]]
  | '|' :: '|' :: cs => [] :: splitBars cs
  | c :: cs =>
    match splitBars cs with
    | [] => [[c]]
    | piece :: pieces => (c :: piece) :: pieces

/-! ## Comparators -/

/-- The characters that end an operator: blanks behind one of them are ignored. -/
def isOperatorChar (c : Char) : Bool := c == '<' || c == '>' || c == '=' || c == '~' || c == '^'

/-- The text without the blanks behind operator characters. `joined` tells whether the character
    before was one. -/
def closeUp (joined : Bool) : List Char → List Char
  | [] => []
  | c :: cs =>
    if joined && isBlank c then closeUp true cs else c :: closeUp (isOperatorChar c) cs

/-- The comparison that a text begins with, and what follows it. A single `=` means equality, as
    does no operator at all. -/
def readOperator : List Char → Operator × List Char
  | '>' :: '=' :: cs => (.gte, cs)
  | '>' :: cs => (.gt, cs)
  | '<' :: '=' :: cs => (.lte, cs)
  | '<' :: cs => (.lt, cs)
  | '=' :: cs => (.eq, cs)
  | cs => (.eq, cs)

/-- A comparator as it is written. -/
inductive Term where
  | caret (p : PartialText)
  | tilde (p : PartialText)
  | compare (op : Operator) (p : PartialText)
  deriving Repr, DecidableEq

/-- The comparator a word spells, if it spells one. -/
def Term.read? : List Char → Option Term
  | '^' :: cs => (PartialText.ofChars? cs).map .caret
  | '~' :: '>' :: cs => (PartialText.ofChars? cs).map .tilde
  | '~' :: cs => (PartialText.ofChars? cs).map .tilde
  | cs => (PartialText.ofChars? (readOperator cs).2).map (.compare (readOperator cs).1)

/-- The clauses a comparator stands for, unless a number it needs is no word. -/
def Term.clauses? : Term → Option (List Clause)
  | .caret p => p.value?.bind Partial.caret?
  | .tilde p => p.value?.bind Partial.tilde?
  | .compare op p => p.value?.bind (Partial.compare? op)

/-! ## Hyphen ranges -/

/-- The two ends of a hyphen range: two partial versions with a hyphen between blanks between
    them. Neither may hold a blank behind its lead characters. -/
def readHyphen? (cs : List Char) : Option (PartialText × PartialText) := do
  let cs := cs.dropWhile PartialText.isLead
  let lower ← PartialText.ofParts? (cs.takeWhile fun c => !isBlank c)
  match (cs.dropWhile fun c => !isBlank c).dropWhile isBlank with
  | '-' :: c :: rest =>
    if isBlank c then (PartialText.ofChars? rest).map fun upper => (lower, upper) else none
  | _ => none

/-! ## Ranges -/

/-- The clauses of a list of comparators, those that cannot be read left out. -/
def termClauses? (cs : List Char) : Option (List Clause) :=
  match words (closeUp false cs) with
  | [] => some [.any]
  | ws => ((ws.filterMap Term.read?).mapM Term.clauses?).map List.flatten

/-- The clauses of one group. -/
def groupClauses? (cs : List Char) : Option (List Clause) :=
  match readHyphen? cs with
  | some (lower, upper) => do
    let lower ← lower.value?
    let upper ← upper.value?
    lower.hyphen? upper
  | none => termClauses? cs

/-- One group that means any version makes the others idle. -/
def absorb (groups : ParsedRange) : ParsedRange :=
  if [Clause.any] ∈ groups then [[Clause.any]] else groups

/-- The groups of a range text, if it is valid. -/
def ParsedRange.parse? (text : String) : Option ParsedRange := do
  let groups ← (splitBars text.toList).mapM fun group => groupClauses? (trim group)
  match groups.filter (fun group => !group.isEmpty) with
  | [] => none
  | kept => some (absorb kept)

end DepSpec
