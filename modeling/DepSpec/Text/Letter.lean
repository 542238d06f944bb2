set_option autoImplicit false

/-! # Letters, digits and letter case

The ASCII classes that versions, tags and names are made of, and the comparison of text with
letter case ignored. Two letters outside ASCII fold to ASCII ones, the long s (U+017F) to `s`
and the Kelvin sign (U+212A) to `k`; a scheme may be spelt with them. -/

namespace DepSpec.Text

/-! ## ASCII classes -/

/-- The characters of a version identifier: ASCII letters, ASCII digits and the hyphen. -/
def isIdentifierChar (c : Char) : Bool := c.isAlphanum || c == '-'

/-- The characters that percent-encoding of a URI component leaves alone. -/
def isUriSafe (c : Char) : Bool :=
  c.isAlphanum || c == '-' || c == '_' || c == '.' || c == '!' || c == '~' || c == '*' ||
    c == '\x27' || c == '(' || c == ')'

/-! ## Letter case -/

/-- The text with its ASCII capitals made small. -/
def lowerAscii (cs : List Char) : List Char := cs.map Char.toLower

/-- The letter a character folds to: capitals to small letters, the long s and the Kelvin sign
    to the ASCII letters they are variants of. -/
def foldCase (c : Char) : Char :=
  if c == '\u017F' then 's' else if c == '\u212A' then 'k' else c.toLower

/-- A letter from `a` to `z`, in any case. -/
def isFoldedLetter (c : Char) : Bool := (foldCase c).isLower

/-- Equality with letter case ignored; `pattern` is given in small letters. -/
def matchesFolded (pattern cs : List Char) : Bool := cs.map foldCase == pattern

/-- What follows `start`, if the text begins with it in any letter case. -/
def afterFolded? (start cs : List Char) : Option (List Char) :=
  if matchesFolded start (cs.take start.length) then some (cs.drop start.length) else none

/-- What is cut off and what is left are as long as the text together. -/
theorem length_of_afterFolded? {start cs rest : List Char}
    (h : afterFolded? start cs = some rest) : start.length + rest.length = cs.length := by
  unfold afterFolded? at h
  split at h
  · next hm =>
    cases h
    have hlen : (cs.take start.length).length = start.length := by
      simpa [matchesFolded] using congrArg List.length (beq_iff_eq.1 hm)
    simp only [List.length_take] at hlen
    simp only [List.length_drop]
    omega
  · cases h

/-- Whether the text ends with `ending` in any letter case. -/
def endsFolded (ending cs : List Char) : Bool :=
  ending.isSuffixOf (cs.map foldCase)

end DepSpec.Text
