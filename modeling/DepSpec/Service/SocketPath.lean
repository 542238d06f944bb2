set_option autoImplicit false

/-! # The path of a socket

A service listens on a socket that has a place in the file system. What a path leads to is a
`SocketPath`; a socket has an identity that no other socket shares, and a `Listener`, which tells
whether somebody is behind it and whether a client gets through. Before a service binds its own
socket it tries to connect to the one that is there, and clears it away if that fails for any
reason. When it stops it takes its own socket away, and leaves whatever else has been put there. -/

namespace DepSpec

/-- What keeps a client from somebody who accepts connections. -/
inductive Barrier where
  /-- As many connections as the queue holds wait to be accepted. -/
  | fullQueue
  /-- The connections that are accepted are not streams. -/
  | otherType
  /-- The client is not allowed to write to the socket. -/
  | noAccess
  deriving Repr, DecidableEq

/-- Who is behind a socket, for a client that connects to it now. -/
inductive Listener where
  /-- Nobody: the socket is dead. -/
  | nobody
  /-- Somebody who accepts the connection. -/
  | reached
  /-- Somebody who accepts connections, and does not get this one. -/
  | behind (barrier : Barrier)
  deriving Repr, DecidableEq

/-- An object in the file system. -/
inductive PathEntry where
  | socket (identity : Nat) (listener : Listener)
  | file
  | directory
  deriving Repr, DecidableEq

/-- What a path leads to. -/
inductive SocketPath where
  /-- The directory that the path lies in is missing. -/
  | noParent
  /-- What the path lies in is no directory. -/
  | parentNotDirectory
  /-- There is nothing at the path, and something can be put there. -/
  | vacant
  | holds (entry : PathEntry)
  deriving Repr, DecidableEq

/-- Why the system turns down an operation on a path. -/
inductive IoError where
  | addrInUse
  | notFound
  | notADirectory
  | connectionRefused
  | wouldBlock
  | wrongSocketType
  | permissionDenied
  deriving Repr, DecidableEq

/-- What the system tells a client that meets a barrier. -/
def Barrier.error : Barrier → IoError
  | .fullQueue => .wouldBlock
  | .otherType => .wrongSocketType
  | .noAccess => .permissionDenied

namespace SocketPath

/-- Whether there is anything at the path. -/
def isTaken : SocketPath → Bool
  | .holds _ => true
  | _ => false

/-- The identity of the socket at the path. -/
def identity? : SocketPath → Option Nat
  | .holds (.socket identity _) => some identity
  | _ => none

/-! ## Connecting -/

/-- The socket that a client which connects to the path reaches. -/
def connect : SocketPath → Except IoError Nat
  | .holds (.socket identity .reached) => .ok identity
  | .holds (.socket _ (.behind barrier)) => .error barrier.error
  | .holds _ => .error .connectionRefused
  | .vacant | .noParent => .error .notFound
  | .parentNotDirectory => .error .notADirectory

/-- Whether a client does well to try again: nobody is there yet. -/
def isNotReady : IoError → Bool
  | .notFound | .connectionRefused => true
  | _ => false

/-- Connect, and try again up to `attempts` times in all while nobody is there; `path n` is what
    try number `n` finds. There is always one try. -/
def connectRetrying (attempts : Nat) (path : Nat → SocketPath) : Except IoError Nat :=
  match attempts with
  | 0 | 1 => (path 0).connect
  | attempts + 1 =>
    match (path 0).connect with
    | .error e => if isNotReady e then connectRetrying attempts fun n => path (n + 1) else .error e
    | .ok identity => .ok identity

/-! ## Binding -/

/-- Whether a service takes the path for its own: it is vacant, or holds a socket to which no
    connection can be made. -/
def isFree (path : SocketPath) : Bool :=
  match path with
  | .vacant => true
  | .holds (.socket _ _) => !path.connect.isOk
  | _ => false

/-- Take away a socket to which no connection can be made. Every error counts as a sign that nobody
    listens, whatever it says. Anything that is no socket stays and is left for `bind` to find. -/
def clearStale (path : SocketPath) : Except IoError Unit × SocketPath :=
  match path with
  | .holds (.socket _ _) =>
    match path.connect with
    | .ok _ => (.error .addrInUse, path)
    | .error _ => (.ok (), .vacant)
  | .parentNotDirectory => (.error .notADirectory, path)
  | _ => (.ok (), path)

/-- Put a listening socket at the path. -/
def bind (identity : Nat) : SocketPath → Except IoError Unit × SocketPath
  | .vacant => (.ok (), .holds (.socket identity .reached))
  | .holds entry => (.error .addrInUse, .holds entry)
  | .noParent => (.error .notFound, .noParent)
  | .parentNotDirectory => (.error .notADirectory, .parentNotDirectory)

/-- Clear the path and put a listening socket there. -/
def occupy (identity : Nat) (path : SocketPath) : Except IoError Unit × SocketPath :=
  match path.clearStale with
  | (.error e, path) => (.error e, path)
  | (.ok (), path) => path.bind identity

/-- A path that is free is taken. -/
theorem occupy_of_isFree {path : SocketPath} (h : path.isFree = true) (identity : Nat) :
    path.occupy identity = (.ok (), .holds (.socket identity .reached)) := by
  cases path with
  | holds entry =>
    cases entry with
    | socket other listener =>
      cases listener with
      | reached => cases h
      | nobody | behind => rfl
    | file | directory => cases h
  | vacant => rfl
  | noParent | parentNotDirectory => cases h

/-- A path that is not free turns everybody down and stays as it is. -/
theorem occupy_of_not_isFree {path : SocketPath} (h : path.isFree = false) (identity : Nat) :
    ∃ e, path.occupy identity = (.error e, path) := by
  cases path with
  | holds entry =>
    cases entry with
    | socket other listener =>
      cases listener with
      | reached => exact ⟨_, rfl⟩
      | nobody | behind => cases h
    | file | directory => exact ⟨_, rfl⟩
  | vacant => cases h
  | noParent | parentNotDirectory => exact ⟨_, rfl⟩

/-! ## Releasing -/

/-- Stop listening on the socket `identity`; a path that holds it holds a dead socket then. -/
def close (identity : Nat) : SocketPath → SocketPath
  | .holds (.socket other listener) =>
    .holds (.socket other (if other = identity then .nobody else listener))
  | path => path

/-- Take the socket `identity` away if the path still holds it. -/
def remove (identity : Nat) (path : SocketPath) : SocketPath :=
  if path.identity? = some identity then .vacant else path

/-- Stop listening on the socket `identity` and take it away if the path still holds it. -/
def release (identity : Nat) (path : SocketPath) : SocketPath :=
  (path.close identity).remove identity

/-- Closing a socket moves none. -/
theorem identity?_close (identity : Nat) (path : SocketPath) :
    (path.close identity).identity? = path.identity? := by
  cases path with
  | holds entry => cases entry <;> rfl
  | _ => rfl

/-- A path that holds the socket is vacant afterwards. -/
theorem release_of_eq {identity : Nat} {path : SocketPath} (h : path.identity? = some identity) :
    path.release identity = .vacant := by
  simp [release, remove, identity?_close, h]

/-- A path that holds anything else stays as it is. -/
theorem release_of_ne {identity : Nat} {path : SocketPath} (h : path.identity? ≠ some identity) :
    path.release identity = path := by
  have hclose : path.close identity = path := by
    cases path with
    | holds entry =>
      cases entry with
      | socket other listener =>
        have hne : other ≠ identity := by simpa [identity?] using h
        simp [close, hne]
      | _ => rfl
    | _ => rfl
  simp [release, remove, hclose, h]

end SocketPath

end DepSpec
