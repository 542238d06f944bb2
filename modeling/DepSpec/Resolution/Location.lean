import DepSpec.Repository.Reader
import DepSpec.Resolution.SpecError

set_option autoImplicit false

/-! # Specifiers that name a place

Local paths, repositories and URLs: which texts are taken for them, and how they resolve. -/

namespace DepSpec

open Text

namespace Resolution

/-! ## Local paths -/

/-- What follows `file:`, in any letter case. -/
def afterFile? (cs : List Char) : Option (List Char) := afterFolded? "file:".toList cs

/-- Whether a text can only be a local path: it begins with a dot, a slash or backslash, `~/`, or
    a drive letter. -/
def isLocalPath : List Char → Bool
  | '.' :: _ | '/' :: _ | '\\' :: _ | '~' :: '/' :: _ => true
  | c :: ':' :: _ => c.isAlpha
  | _ => false

/-- The endings of an archive that holds a package. -/
def tarballEndings : List (List Char) := [".tgz".toList, ".tar.gz".toList, ".tar".toList]

/-- Whether a path names an archive, in any letter case. -/
def isTarball (cs : List Char) : Bool := tarballEndings.any fun ending => endsFolded ending cs

/-- A local path, with or without `file:` in front: an archive or a directory. -/
def ofFile (spec : List Char) : Resolution :=
  let path := (afterFile? spec).getD spec
  { kind := if isTarball path then "file" else "directory", raw := String.ofList spec,
    save := some (String.ofList ("file:".toList ++ path)), fetch := some (String.ofList path) }

/-! ## Repositories -/

/-- A repository on a known host. One written as a shortcut has no URL to fetch from. -/
def ofRepository (spec : List Char) (r : Repository) : Resolution :=
  { kind := "git", raw := String.ofList spec, save := some r.text,
    fetch := if r.form = .shortcut then none else some r.text }

/-! ## URLs -/

/-- Whether a text begins with a scheme: letters, perhaps behind `git+`, and a colon. -/
def isUrl (cs : List Char) : Bool :=
  match cut? (· == ':') cs with
  | none => false
  | some (scheme, _) =>
    let transport := (afterFolded? "git+".toList scheme).getD scheme
    !transport.isEmpty && transport.all isFoldedLetter

/-- The text up to and with its first colon, in small letters. -/
def protocolOf (cs : List Char) : List Char :=
  match cut? (· == ':') cs with
  | none => []
  | some (scheme, _) => lowerAscii scheme ++ [':']

/-- The protocols that a repository is cloned over. -/
def gitProtocols : List (List Char) :=
  ["git:", "git+http:", "git+https:", "git+rsync:", "git+ftp:", "git+file:", "git+ssh:"].map
    String.toList

/-- The protocols that an archive is downloaded over. -/
def webProtocols : List (List Char) := ["http:".toList, "https:".toList]

/-- The URL to clone from: without the committish, and without the `git+` in front. -/
def cloneUrl (spec : List Char) : List Char :=
  let body := (Repository.splitCommittish spec).1
  (after? "git+".toList body).getD body

/-- A URL on no known host. -/
def ofUrl (spec : List Char) : Except SpecError Resolution :=
  let text := String.ofList spec
  if gitProtocols.contains (protocolOf spec) then
    .ok { kind := "git", raw := text, save := some text,
          fetch := some (String.ofList (cloneUrl spec)) }
  else if webProtocols.contains (protocolOf spec) then
    .ok { kind := "remote", raw := text, save := some text, fetch := some text }
  else .error (.protocol (String.ofList (protocolOf spec)) text)

end Resolution

end DepSpec
