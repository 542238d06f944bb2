import DepSpec.Resolution.Location

set_option autoImplicit false

/-! # Package arguments

A package argument is a name and a specifier with an `@` between them, either alone, or the
address of a repository in secure-copy form. Splitting one decides which. -/

namespace DepSpec

open Text

/-- A package argument taken apart. -/
inductive Argument where
  /-- A specifier without a package name. -/
  | bare (spec : List Char)
  /-- A package name and its specifier, empty if only the name was given. -/
  | named (name spec : List Char)
  /-- An address such as `user@host.domain:path`. -/
  | secureCopy (address : List Char)
  deriving Repr, DecidableEq

namespace Argument

/-- The parts on the two sides of the `@` that ends the package name. A leading `@` marks a scope
    and ends no name. -/
def splitName? : List Char → Option (List Char × List Char)
  | '@' :: cs => (cut? (· == '@') cs).map fun (name, spec) => ('@' :: name, spec)
  | cs => cut? (· == '@') cs

/-- `user@host.domain:path`: a dot in the host, and a nonempty path on one line. -/
def isSecureCopy (cs : List Char) : Bool :=
  match cut? (· == '@') cs with
  | none => false
  | some (user, address) =>
    match cut? (fun c => c == ':' || c == '.') address with
    | none => false
    | some (host, _) =>
      match address.drop host.length with
      | '.' :: rest =>
        match cut? (· == ':') rest with
        | none => false
        | some (domain, path) =>
          !user.isEmpty && !host.isEmpty && !domain.isEmpty && Repository.isPath path
      | _ => false

/-- Whether the part that would be the name is a path: it has a slash or ends like an archive, and
    begins with no scope. -/
def isPathLike (name : List Char) : Bool :=
  name.head? != some '@' && (name.contains '/' || Resolution.isTarball name)

/-- An argument taken apart. -/
def ofChars (arg : List Char) : Argument :=
  let split := splitName? arg
  let name := (split.map Prod.fst).getD arg
  if Resolution.isUrl arg then .bare arg
  else if isSecureCopy arg then .secureCopy arg
  else if isPathLike name then .bare arg
  else match split with
    | some (name, spec) => .named name spec
    | none => if PackageName.isValid arg then .named arg [] else .bare arg

end Argument

end DepSpec
