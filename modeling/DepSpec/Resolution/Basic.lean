set_option autoImplicit false

/-! # Resolutions

What a resolver says of one specifier: its kind, the text as given, and as far as they apply the
package name, the form to save in a manifest, the form to fetch from, and the target of an alias.
The kind is open text, so that a kind unknown to the reader can still be told. -/

namespace DepSpec

/-- The answer of a resolver. -/
structure Resolution where
  kind : String
  raw : String
  name : Option String := none
  save : Option String := none
  fetch : Option String := none
  target : Option Resolution := none
  deriving Repr

/-- Whether the specifier is looked up in a registry: tags, versions, ranges, and aliases of
    those. -/
def Resolution.isRegistry (r : Resolution) : Bool :=
  ["tag", "version", "range", "alias"].contains r.kind

/-- Why a resolver or a range parser turns a text down, in its own code and words. -/
structure Refusal where
  code : String
  message : String
  deriving Repr, DecidableEq

/-- Code and message on one line. -/
def Refusal.text (r : Refusal) : String := r.code ++ ": " ++ r.message

end DepSpec
