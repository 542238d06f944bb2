import DepSpec.CommandLine.Reader
import DepSpec.Service.Loopback

set_option autoImplicit false

/-! # Running a service

The program that serves classification on a socket for as long as its peer lives. The command line
names the socket, the peer and perhaps a configuration file, whose settings it may override. -/

namespace DepSpec.CommandLine

open Text

/-- What the command line says. -/
structure DaemonArguments where
  socket : Option String := none
  peer : Option Nat := none
  config : Option String := none
  framing : Option Framing := none
  envelope : Option Envelope := none
  livenessIntervalMs : Option UInt64 := none
  deriving Repr, DecidableEq

namespace DaemonArguments

/-- The options of the program. -/
def options : List String := ["config", "framing", "envelope", "liveness-interval-ms"]

/-- An id that a process might have: a positive number of 32 bits. -/
def processId? (text : String) : Option Nat :=
  (number? text).filter fun pid => 0 < pid && pid < UInt32.size

/-- One item more. The first operand is the socket, the second the peer. -/
def accept (a : DaemonArguments) : Item → Option DaemonArguments
  | .operand text =>
    if a.socket.isNone then (path? text).map fun socket => { a with socket := some socket }
    else (once? a.peer (processId? text)).map fun peer => { a with peer := peer }
  | .option "config" value =>
    (once? a.config (path? value)).map fun config => { a with config := config }
  | .option "framing" value =>
    (once? a.framing (Framing.ofName? value)).map fun framing => { a with framing := framing }
  | .option "envelope" value =>
    (once? a.envelope (Envelope.ofName? value)).map fun envelope => { a with envelope := envelope }
  | .option "liveness-interval-ms" value =>
    (once? a.livenessIntervalMs ((number? value).bind toWord?)).map fun ms =>
      { a with livenessIntervalMs := ms }
  | .option .. => none

/-- Settings with those of the command line instead of their own. -/
def override (a : DaemonArguments) (c : Settings) : Settings :=
  { c with
    framing := a.framing.getD c.framing,
    envelope := a.envelope.getD c.envelope,
    livenessIntervalMs := a.livenessIntervalMs.getD c.livenessIntervalMs }

end DaemonArguments

/-- What a program finds around it. -/
structure Surroundings where
  /-- The bytes of a file, if it can be read. -/
  file : String → Option (List UInt8)
  /-- What a path leads to. -/
  path : String → SocketPath
  /-- Whether there is a process with an id. -/
  running : Nat → Bool

/-- The name of the program. -/
def daemonProgram : String := "specsrv"

/-- How a start went. -/
inductive Launch where
  | ended (ending : Ending)
  /-- The server has bound its socket. -/
  | serving (l : Loopback)

/-- A server for the npm rules at a path, not started yet. -/
def serviceAt (settings : Settings) (path : SocketPath) : Loopback :=
  { service := { caps := .npm, settings := settings },
    server := { path := path, watching := true },
    freshIdentity := (path.identity?.map (· + 1)).getD 0 }

/-- Start a service for a peer. -/
def serve (surroundings : Surroundings) (a : DaemonArguments) (socket : String) (peer : Nat) :
    Launch :=
  match Settings.load (a.config.map surroundings.file) with
  | .error _ => .ended (.exit 1 "")
  | .ok settings =>
    let l := serviceAt (a.override settings) (surroundings.path socket)
    match l.start (peerAlive surroundings.running peer) with
    | (.error _, _) => .ended (.exit 1 "")
    | (.ok (), l) => .serving l

/-- What the program does with its arguments. -/
def daemon (surroundings : Surroundings) (args : List String) : Launch :=
  match read DaemonArguments.options DaemonArguments.accept {} args with
  | .usage => .ended .usage
  | .help => .ended .help
  | .version => .ended (.version daemonProgram)
  | .accepted a =>
    match a.socket, a.peer with
    | some socket, some peer => serve surroundings a socket peer
    | _, _ => .ended .usage

end DepSpec.CommandLine
