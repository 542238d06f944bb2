set_option autoImplicit false

/-! # Blanks and trimming

The blank characters are those with the Unicode property `White_Space`: 25 characters, of which
six are ASCII. Every place that ignores surrounding space or cuts a text at its blanks uses this
one class.

Text is handled as `List Char` below the public API, so that a function on text is a recursion
on a list. -/

namespace DepSpec.Text

/-! ## The class -/

/-- The characters with the Unicode property `White_Space`. -/
def isBlank (c : Char) : Bool :=
  let n := c.toNat
  (0x09 ≤ n && n ≤ 0x0D) || n == 0x20 || n == 0x85 || n == 0xA0 || n == 0x1680 ||
    (0x2000 ≤ n && n ≤ 0x200A) || n == 0x2028 || n == 0x2029 || n == 0x202F ||
    n == 0x205F || n == 0x3000

/-! ## Trimming -/

/-- The text without its leading blanks. -/
def trimStart (cs : List Char) : List Char := cs.dropWhile isBlank

/-- The text without its trailing blanks. -/
def trimEnd (cs : List Char) : List Char := (cs.reverse.dropWhile isBlank).reverse

/-- The text without its surrounding blanks. -/
def trim (cs : List Char) : List Char := trimEnd (trimStart cs)

end DepSpec.Text
