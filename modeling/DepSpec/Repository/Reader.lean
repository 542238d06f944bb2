import DepSpec.Repository.Basic
import DepSpec.Text.DecimalDigit
import DepSpec.Text.Split

set_option autoImplicit false

/-! # Recognising hosted repositories

A repository is written as a shorthand `user/project` (on GitHub), as a shortcut
`gitlab:group/project`, as a secure-copy address `git@host:path`, or as a URL. Each may end in a
`#` and a committish. What all forms share is the path, and which paths name a repository depends
on the host.

The forms are tried in this order, and the first that fits decides: a text in a form that fits, on
a known host, with a path that names no repository there, is no repository. -/

namespace DepSpec

open Text

/-! ## Paths -/

namespace GitHost

/-- Owner, project and committish of a path cut at its slashes. GitLab nests groups, so that all
    but the last piece are the owner, and keeps paths with a lone dash inside and archive
    downloads for itself. GitHub shows a committish behind `tree`. -/
def readSegments? (host : GitHost) (segments : List (List Char)) :
    Option (List Char × List Char × Option (List Char)) :=
  match host, segments with
  | .gitLab, segments =>
    if segments.tail.dropLast.contains ['-'] ||
        (1 < segments.length && segments.getLast? == some "archive.tar.gz".toList) then none
    else segments.getLast?.map fun project => (['/'].intercalate segments.dropLast, project, none)
  | .gitHub, [user, project, tree, committish] =>
    if tree == "tree".toList then some (user, project, some committish) else none
  | _, [user, project] => some (user, project, none)
  | _, _ => none

/-- Owner, project and committish of a path. Slashes around it and one `.git` at the end are
    ignored; owner and project must not be empty. -/
def readPath? (host : GitHost) (path : List Char) :
    Option (List Char × List Char × Option (List Char)) := do
  let (user, project, committish) ← host.readSegments? (splitSlashes (strip (· == '/') path))
  let project := withoutEnding ".git".toList project
  if user.isEmpty || project.isEmpty then none else some (user, project, committish)

end GitHost

namespace Repository

/-- The repository at a path of a host. A committish of its own goes before one in the path. -/
def ofPath? (host : GitHost) (path : List Char) (committish : Option (List Char))
    (form : RepositoryForm) : Option Repository := do
  let (user, project, pathCommittish) ← host.readPath? path
  some { host := host, user := String.ofList user, project := String.ofList project,
         committish := (committish <|> pathCommittish).map String.ofList, form := form }

/-! ## Forms -/

/-- The text before the first `#`, and the committish behind it unless that is empty. -/
def splitCommittish (cs : List Char) : List Char × Option (List Char) :=
  match cut? (· == '#') cs with
  | none => (cs, none)
  | some (body, []) => (body, none)
  | some (body, committish) => (body, some committish)

/-- `user/project`: two nonempty pieces, without blanks, `@` and `:`, not beginning with a dot. -/
def isShorthand (body : List Char) : Bool :=
  match splitSlashes body with
  | [user, project] =>
    !user.isEmpty && !project.isEmpty && user.head? != some '.' &&
      body.all fun c => !isBlank c && c != '@' && c != ':'
  | _ => false

/-- Text on a single line. -/
def isLine (cs : List Char) : Bool := cs.all (· != '\n')

/-- Nonempty text on a single line. -/
def isPath (cs : List Char) : Bool := !cs.isEmpty && isLine cs

/-- `name:path` with a name of ASCII letters and a path that does not begin with a slash. -/
def readShortcut? (body : List Char) : Option (GitHost × List Char) := do
  let (name, path) ← cut? (· == ':') body
  match path with
  | [] => none
  | c :: rest =>
    if !name.isEmpty && name.all Char.isAlpha && c != '/' && isLine rest then
      (GitHost.ofShortcut? name).map fun host => (host, path)
    else none

/-- `git@host:path`. -/
def readSecureCopy? (body : List Char) : Option (GitHost × List Char) := do
  let (name, path) ← cut? (· == ':') (← after? "git@".toList body)
  if !name.isEmpty && name.all (fun c => c != '/' && !isBlank c) && isPath path then
    (GitHost.ofDomain? name).map fun host => (host, path)
  else none

/-- The schemes of repository URLs. -/
def schemes : List (List Char) :=
  ["git+ssh", "ssh", "git+https", "git+http", "https", "http", "git"].map String.toList

/-- The form that a repository with a URL of this scheme is written back in. -/
def formOfScheme (scheme : List Char) : RepositoryForm :=
  if lowerAscii scheme == "git+ssh".toList || lowerAscii scheme == "ssh".toList then .ssh
  else if lowerAscii scheme == "git".toList then .git
  else .https

/-- The path behind a port number, if the text begins with one. -/
def afterPort? (cs : List Char) : Option (List Char) :=
  if (cs.takeWhile isDecimalDigit).isEmpty then none
  else match cs.dropWhile isDecimalDigit with
    | '/' :: path | ':' :: path => if isPath path then some path else none
    | _ => none

/-- The characters of a domain in a URL. -/
def isDomainChar (c : Char) : Bool := c != '/' && c != ':' && !isBlank c

/-- Domain and path of a URL behind its user part. The path begins behind a slash or colon;
    between domain and path a port may stand. -/
def readDomain? (cs : List Char) : Option (List Char × List Char) :=
  let domain := cs.takeWhile isDomainChar
  if domain.isEmpty then none
  else match cs.dropWhile isDomainChar with
    | '/' :: path => if isPath path then some (domain, path) else none
    | ':' :: path =>
      (afterPort? path <|> if isPath path then some path else none).map fun path => (domain, path)
    | _ => none

/-- What follows the `@` of a user part, if the text begins with one. -/
def afterUser? (cs : List Char) : Option (List Char) := do
  let (user, rest) ← cut? (· == '@') cs
  if !user.isEmpty && user.all (fun c => c != '/' && !isBlank c) then some rest else none

/-- Domain and path of a URL behind its scheme; what looks like a user part is read as domain and
    path if it cannot be one. -/
def readAuthority? (cs : List Char) : Option (List Char × List Char) :=
  (afterUser? cs).bind readDomain? <|> readDomain? cs

/-- Scheme, host and path of a URL on a known host. -/
def readUrl? (body : List Char) : Option (List Char × GitHost × List Char) := do
  let (scheme, rest) ← cut? (· == ':') body
  let (domain, path) ← readAuthority? (← after? "//".toList rest)
  if schemes.any (matchesFolded · scheme) then
    (GitHost.ofDomain? domain).map fun host => (scheme, host, path)
  else none

/-- The repository that a text names, in whichever form. -/
def ofChars? (cs : List Char) : Option Repository :=
  let (body, committish) := splitCommittish cs
  if isShorthand body then ofPath? .gitHub body committish .shortcut
  else match readShortcut? body with
    | some (host, path) => ofPath? host path committish .shortcut
    | none =>
      match readSecureCopy? body with
      | some (host, path) => ofPath? host path committish .ssh
      | none =>
        match readUrl? body with
        | some (scheme, host, path) => ofPath? host path committish (formOfScheme scheme)
        | none => none

/-- The repository that a specifier names. -/
def parse? (spec : String) : Option Repository := ofChars? spec.toList

end Repository

end DepSpec
