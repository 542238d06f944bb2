import DepSpec.Range.Basic

set_option autoImplicit false

/-! # Classified specifiers

The answer to the question what a dependency specifier is: a repository, a range of versions, a
tag, a local archive or directory, an archive on the web, or another package under this name. -/

namespace DepSpec

/-- What an alias stands for in a registry. -/
inductive AliasTarget where
  | tag (name : String)
  | range (range : Constraint)
  deriving Repr, DecidableEq

/-- A classified dependency specifier. -/
inductive Specifier where
  | git (url : String)
  | range (range : Constraint)
  | tag (name : String)
  | file (path : String)
  | directory (path : String)
  | remote (url : String)
  | alias (name : String) (registry : Option String) (target : AliasTarget)
  deriving Repr, DecidableEq

/-- The specifier that an alias target is without its package. -/
def AliasTarget.specifier : AliasTarget → Specifier
  | .tag t => .tag t
  | .range r => .range r

end DepSpec
