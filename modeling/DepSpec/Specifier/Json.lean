import DepSpec.Json.Decode
import DepSpec.Specifier.Basic

set_option autoImplicit false

/-! # Specifiers as JSON

The form in which classified specifiers are sent. A variant is an object whose single field names
it, a version is a record, and an alias is a triple of name, registry and target. The decoder also
takes the other spellings of records and variants (`Json.record?`, `Json.variant?`), and ignores
fields of a version that it does not know. -/

namespace DepSpec

/-! ## Versions -/

namespace PrereleaseId

def toJson : PrereleaseId → Json
  | .int n => .variant "Int" (.ofWord n)
  | .text s => .variant "String" (.ofText s)

def ofJson? (v : Json) : Option PrereleaseId := do
  match ← v.variant? with
  | ("Int", some n) => n.word?.map .int
  | ("String", some s) => s.text?.map .text
  | _ => none

end PrereleaseId

namespace VersionRecord

/-- The fields of a version, in the order in which they are sent. -/
def fieldNames : List String := ["major", "minor", "patch", "prerelease", "build"]

def toJson (v : VersionRecord) : Json :=
  .record [("major", .ofWord v.major), ("minor", .ofWord v.minor), ("patch", .ofWord v.patch),
    ("prerelease", .array (v.prerelease.map PrereleaseId.toJson)),
    ("build", .array (v.build.map Json.ofText))]

def ofJson? (v : Json) : Option VersionRecord := do
  match ← v.record? fieldNames true with
  | [some major, some minor, some patch, some prerelease, some build] => do
    let major ← major.word?
    let minor ← minor.word?
    let patch ← patch.word?
    let prerelease ← prerelease.listOf? PrereleaseId.ofJson?
    let build ← build.listOf? Json.text?
    some ⟨major, minor, patch, prerelease, build⟩
  | _ => none

end VersionRecord

/-! ## Ranges -/

namespace Operator

/-- The variant of a comparator with this operator. -/
def variantName : Operator → String
  | .eq => "Eq"
  | .gt => "Gt"
  | .gte => "Gte"
  | .lt => "Lt"
  | .lte => "Lte"

def ofVariantName? : String → Option Operator
  | "Eq" => some .eq
  | "Gt" => some .gt
  | "Gte" => some .gte
  | "Lt" => some .lt
  | "Lte" => some .lte
  | _ => none

end Operator

namespace Comparator

def toJson : Comparator → Json
  | .any => .ofText "Any"
  | .compare op v => .variant op.variantName v.toJson

def ofJson? (v : Json) : Option Comparator := do
  match ← v.variant? with
  | ("Any", none) | ("Any", some .null) => some .any
  | (name, some value) => do
    let op ← Operator.ofVariantName? name
    (VersionRecord.ofJson? value).map (.compare op)
  | _ => none

end Comparator

namespace Constraint

def toJson (range : Constraint) : Json :=
  .array (range.map fun group => .array (group.map Comparator.toJson))

def ofJson? (v : Json) : Option Constraint := v.listOf? (Json.listOf? Comparator.ofJson?)

end Constraint

/-! ## Specifiers -/

namespace AliasTarget

def toJson : AliasTarget → Json
  | .tag t => .variant "Tag" (.ofText t)
  | .range r => .variant "Range" (Constraint.toJson r)

def ofJson? (v : Json) : Option AliasTarget := do
  match ← v.variant? with
  | ("Tag", some t) => t.text?.map .tag
  | ("Range", some r) => (Constraint.ofJson? r).map .range
  | _ => none

end AliasTarget

namespace Specifier

/-- The variant of a specifier. -/
def variantName : Specifier → String
  | .git _ => "Git"
  | .range _ => "Range"
  | .tag _ => "Tag"
  | .file _ => "File"
  | .directory _ => "Directory"
  | .remote _ => "Remote"
  | .alias .. => "Alias"

def toJson : Specifier → Json
  | .git url => .variant "Git" (.ofText url)
  | .range r => .variant "Range" (Constraint.toJson r)
  | .tag t => .variant "Tag" (.ofText t)
  | .file path => .variant "File" (.ofText path)
  | .directory path => .variant "Directory" (.ofText path)
  | .remote url => .variant "Remote" (.ofText url)
  | .alias name registry target =>
    .variant "Alias" (.array [.ofText name, (registry.map Json.ofText).getD .null, target.toJson])

def ofJson? (v : Json) : Option Specifier := do
  match ← v.variant? with
  | ("Git", some url) => url.text?.map .git
  | ("Range", some r) => (Constraint.ofJson? r).map .range
  | ("Tag", some t) => t.text?.map .tag
  | ("File", some path) => path.text?.map .file
  | ("Directory", some path) => path.text?.map .directory
  | ("Remote", some url) => url.text?.map .remote
  | ("Alias", some (.array [name, registry, target])) => do
    let name ← name.text?
    let registry ← registry.optional? Json.text?
    (AliasTarget.ofJson? target).map (.alias name registry)
  | _ => none

end Specifier

end DepSpec
