import DepSpec.Resolution.Basic
import DepSpec.Resolution.PackageName

set_option autoImplicit false

/-! # What can be wrong with a specifier

Each cause has a stable code, which the receiver may match on, and a message that quotes the text
at fault. -/

namespace DepSpec

/-- What an alias may not point to. -/
inductive AliasFault where
  | nested
  | notRegistry
  deriving Repr, DecidableEq

def AliasFault.reason : AliasFault → String
  | .nested => "nested aliases not supported"
  | .notRegistry => "aliases only work for registry deps"

/-- Why a specifier cannot be resolved or a range cannot be read. -/
inductive SpecError where
  /-- The tag holds a character that a URI component escapes. -/
  | tagName (tag spec : String)
  /-- Nothing can be installed from a URL of this scheme. -/
  | protocol (protocol spec : String)
  /-- The alias points where an alias cannot point. -/
  | alias (fault : AliasFault) (spec : String)
  /-- No comparator of the range can be used, or a bound is no word. -/
  | range (text : String)
  /-- The package name breaks a rule. -/
  | packageName (fault : NameFault) (name : String)
  deriving Repr, DecidableEq

namespace SpecError

def code : SpecError → String
  | .tagName .. => "EINVALIDTAGNAME"
  | .protocol .. => "EUNSUPPORTEDPROTOCOL"
  | .alias .. => "EINVALIDALIAS"
  | .range .. => "EINVALIDRANGE"
  | .packageName .. => "EINVALIDPACKAGENAME"

def message : SpecError → String
  | .tagName tag spec =>
    "Invalid tag name \"" ++ tag ++ "\" of package \"" ++ spec ++
      "\": Tags may not have any characters that encodeURIComponent encodes."
  | .protocol p spec => "Unsupported URL Type \"" ++ p ++ "\": " ++ spec
  | .alias fault spec => fault.reason ++ ": " ++ spec
  | .range r => "Invalid SemVer Range: " ++ r
  | .packageName fault name => "Invalid package name \"" ++ name ++ "\": " ++ fault.reason

/-- The error as a resolver reports it. -/
def refusal (e : SpecError) : Refusal := ⟨e.code, e.message⟩

end SpecError

end DepSpec
