import DepSpec.Text.Letter

set_option autoImplicit false

/-! # Hosted repositories

A repository on one of four well-known git hosts: the host, the user or group that owns it, its
project name, perhaps a committish, and the form it was written in. Every repository can be
written in each of the four forms, and `text` writes the one it came in. -/

namespace DepSpec

open Text

/-! ## Hosts -/

/-- The git hosts whose repositories are recognised. -/
inductive GitHost where
  | gitHub
  | gitLab
  | bitbucket
  | sourceHut
  deriving Repr, DecidableEq

namespace GitHost

/-- All hosts. -/
def all : List GitHost := [.gitHub, .gitLab, .bitbucket, .sourceHut]

/-- The name that a shortcut such as `github:user/project` begins with. -/
def shortcut : GitHost → String
  | .gitHub => "github"
  | .gitLab => "gitlab"
  | .bitbucket => "bitbucket"
  | .sourceHut => "sourcehut"

/-- The domain that serves the repositories. -/
def domain : GitHost → String
  | .gitHub => "github.com"
  | .gitLab => "gitlab.com"
  | .bitbucket => "bitbucket.org"
  | .sourceHut => "git.sr.ht"

/-- The host with a shortcut name, in any letter case. -/
def ofShortcut? (name : List Char) : Option GitHost :=
  all.find? fun host => host.shortcut.toList == lowerAscii name

/-- A domain in small letters without one leading `www.`. -/
def bareDomain (name : List Char) : List Char :=
  match lowerAscii name with
  | 'w' :: 'w' :: 'w' :: '.' :: rest => rest
  | name => name

/-- The host with a domain, in any letter case and with or without `www.`. -/
def ofDomain? (name : List Char) : Option GitHost :=
  all.find? fun host => host.domain.toList == bareDomain name

end GitHost

/-! ## Repositories -/

/-- The forms a hosted repository is written in. -/
inductive RepositoryForm where
  | shortcut
  | https
  | ssh
  | git
  deriving Repr, DecidableEq

/-- A repository on a known host. -/
structure Repository where
  host : GitHost
  user : String
  project : String
  committish : Option String := none
  form : RepositoryForm
  deriving Repr, DecidableEq

namespace Repository

/-- The committish behind a `#`, or nothing. -/
def suffix (r : Repository) : String :=
  match r.committish with
  | none => ""
  | some c => "#" ++ c

/-- Owner and project with a slash between them. -/
def path (r : Repository) : String := r.user ++ "/" ++ r.project

/-- As in `github:user/project#committish`. -/
def shortcut (r : Repository) : String := r.host.shortcut ++ ":" ++ r.path ++ r.suffix

/-- As in `git+https://github.com/user/project.git#committish`. -/
def https (r : Repository) : String :=
  "git+https://" ++ r.host.domain ++ "/" ++ r.path ++ ".git" ++ r.suffix

/-- As in `git+ssh://git@github.com/user/project.git#committish`. -/
def ssh (r : Repository) : String :=
  "git+ssh://git@" ++ r.host.domain ++ "/" ++ r.path ++ ".git" ++ r.suffix

/-- As in `git://github.com/user/project.git#committish`. -/
def git (r : Repository) : String :=
  "git://" ++ r.host.domain ++ "/" ++ r.path ++ ".git" ++ r.suffix

/-- The repository in the form it was written in. -/
def text (r : Repository) : String :=
  match r.form with
  | .shortcut => r.shortcut
  | .https => r.https
  | .ssh => r.ssh
  | .git => r.git

end Repository

end DepSpec
