import DepSpec.Service.Cancellation
import DepSpec.Service.Connection
import DepSpec.Service.SocketPath

set_option autoImplicit false

/-! # The life of a server

A server binds its socket, accepts connections and answers their requests until it is cancelled:
from outside, by the look after its peer, or by an answer that is fatal to the service. Then it
releases its socket, and last it closes what connections are left.

Everything that can happen to a server is an `Event`, and `Server.run` applies a list of them. The
parts of a server run side by side, so the events come in any order; one that does not apply in
the current state changes nothing. The cancellation is shared with others, who act on it through
handles of their own, and the path is open to anybody, who may put anything there at any time. -/

namespace DepSpec

/-- How far a server is. -/
inductive ServerPhase where
  /-- The socket is not bound yet. -/
  | starting
  | listening
  /-- The socket is given up, connections may still be open. -/
  | shuttingDown (reason : StopReason)
  | stopped (reason : StopReason)
  deriving Repr, DecidableEq

/-- A server with the surroundings that it acts on. -/
structure Server where
  phase : ServerPhase := .starting
  /-- The request to stop, which the server shares. -/
  cancellation : Cancellation := {}
  /-- What its path leads to. -/
  path : SocketPath := .vacant
  /-- The socket that it found at its path after binding. -/
  socket : Option Nat := none
  /-- Whether it looks after a peer. -/
  watching : Bool := false
  /-- All connections ever accepted, in order. -/
  connections : List Connection := []
  deriving Repr, DecidableEq

namespace Server

/-! ## Events -/

/-- What can happen to a server. -/
inductive Event where
  /-- A client connects. -/
  | accept
  /-- A connection reads bytes, or the end of its stream. -/
  | read (connection : Nat) (bytes : List UInt8)
  /-- A connection answers its next frame, and the response is written or not. -/
  | respond (connection : Nat) (delivered : Bool)
  /-- Reading from a connection fails. -/
  | lose (connection : Nat)
  /-- A waiting connection sees that the stop was requested. -/
  | notice (connection : Nat)
  /-- Somebody uses a handle of the cancellation. -/
  | use (handle : Nat) (op : Cancellation.Op)
  /-- The server looks after its peer. -/
  | peerCheck (alive : Bool)
  /-- Somebody changes what the path leads to. -/
  | pathChanged (path : SocketPath)
  /-- The server sees that the stop was requested and gives up its socket. -/
  | stop
  /-- The server closes the connections that are left. -/
  | finish
  deriving Repr, DecidableEq

/-! ## What the parts do -/

/-- Whether the server has bound its socket and not stopped. -/
def isRunning (server : Server) : Bool :=
  match server.phase with
  | .listening | .shuttingDown _ => true
  | _ => false

/-- Bind the socket. If that fails the server stays where it is. -/
def start (server : Server) (identity : Nat) : Except IoError Unit × Server :=
  match server.path.occupy identity with
  | (.error e, path) => (.error e, { server with path := path })
  | (.ok (), path) =>
    (.ok (), { server with phase := .listening, path := path, socket := path.identity? })

/-- Request the stop. -/
def cancel (server : Server) (reason : StopReason) : Server :=
  { server with cancellation := (server.cancellation.cancel reason).2 }

/-- Change one connection, if it exists. -/
def onConnection (server : Server) (i : Nat) (f : Connection → Connection) : Server :=
  { server with connections := server.connections.modify i f }

/-- Answer the next frame of a connection. A fatal answer that reaches the client also requests
    the stop. -/
def respond (s : Service) (server : Server) (i : Nat) (delivered : Bool) : Server :=
  match server.connections[i]? with
  | none => server
  | some c =>
    let answered := server.onConnection i fun c => c.respond s delivered
    if delivered && c.isFatalNext s then answered.cancel .fatal else answered

/-- Give up the socket, once the stop was requested. -/
def stop (server : Server) : Server :=
  match server.phase, server.cancellation.reason with
  | .listening, some reason =>
    { server with
      phase := .shuttingDown reason,
      path := (server.socket.map (server.path.release ·)).getD server.path }
  | _, _ => server

/-- Close the connections that are left. -/
def finish (server : Server) : Server :=
  match server.phase with
  | .shuttingDown reason =>
    { server with
      phase := .stopped reason,
      connections := server.connections.map fun c => if c.isClosed then c else c.close .shutdown }
  | _ => server

/-! ## Steps and runs -/

/-- What an event does to a server. -/
def step (s : Service) (server : Server) : Event → Server
  | .accept =>
    if server.phase = .listening then
      { server with connections := server.connections ++ [.fresh s] }
    else server
  | .read i bytes =>
    if server.isRunning then server.onConnection i (·.read bytes) else server
  | .respond i delivered => if server.isRunning then server.respond s i delivered else server
  | .lose i =>
    if server.isRunning then
      server.onConnection i fun c => if c.isWaiting then c.close .lost else c
    else server
  | .notice i =>
    if server.isRunning && server.cancellation.isCancelled then
      server.onConnection i fun c => if c.isWaiting then c.close .shutdown else c
    else server
  | .use handle op => { server with cancellation := (server.cancellation.apply handle op).2 }
  | .peerCheck alive =>
    if server.isRunning && server.watching && !alive then server.cancel .peerExited else server
  | .pathChanged path => { server with path := path }
  | .stop => server.stop
  | .finish => server.finish

/-- What a sequence of events does to a server. -/
def run (s : Service) (server : Server) (events : List Event) : Server :=
  events.foldl (step s) server

/-- Why the server stopped, once it has. -/
def outcome? (server : Server) : Option StopReason :=
  match server.phase with
  | .stopped reason => some reason
  | _ => none

end Server

end DepSpec
