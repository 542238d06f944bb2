import DepSpec.Service.Asking
import DepSpec.Service.Lifecycle
import DepSpec.Service.Peer

set_option autoImplicit false

/-! # A server and its clients in one process

A `Loopback` carries bytes between a server and clients of its own, so that a whole conversation
can be computed. The parts never wait for each other: what a client sends is read and answered at
once, and a requested stop is carried out at once. Everything that happens to the server is one
of its events, so a loopback shows one of the many orders in which they can come.

A client holds a `Link`. Clients that connect while the path leads to a socket of somebody else
hold a link to nothing, on which nothing is ever answered. -/

namespace DepSpec

open Text

/-! ## Cutting bytes into reads -/

/-- Pieces of the given sizes, each size being one more than its number, and the rest in one
    piece. No piece is empty. -/
def pieces : List Nat → List UInt8 → List (List UInt8)
  | _, [] => []
  | [], b :: bytes => [b :: bytes]
  | n :: sizes, b :: bytes => (b :: bytes.take n) :: pieces sizes (bytes.drop n)

/-- The pieces are all the bytes in their order. -/
theorem flatten_pieces (sizes : List Nat) (bytes : List UInt8) :
    (pieces sizes bytes).flatten = bytes := by
  fun_induction pieces sizes bytes with
  | case1 => rfl
  | case2 => simp
  | case3 n sizes b bytes ih => simp [ih]

theorem ne_nil_of_mem_pieces {sizes : List Nat} {bytes piece : List UInt8}
    (h : piece ∈ pieces sizes bytes) : piece ≠ [] := by
  fun_induction pieces sizes bytes with
  | case1 => cases h
  | case2 => exact List.mem_singleton.1 h ▸ List.cons_ne_nil _ _
  | case3 n sizes b bytes ih =>
    rcases List.mem_cons.1 h with rfl | hmem
    · exact List.cons_ne_nil _ _
    · exact ih hmem

/-- The largest read of a connection. -/
def readSize : Nat := 4096

/-- The reads in which bytes that are written at once arrive. -/
def readsOf (bytes : List UInt8) : List (List UInt8) :=
  pieces (List.replicate (bytes.length / readSize) (readSize - 1)) bytes

/-! ## A server at work -/

namespace Server

/-- How many frames of a connection are to be answered. -/
def queueLength (server : Server) (i : Nat) : Nat :=
  ((server.connections[i]?).map fun c => c.queue.length).getD 0

/-- How many response lines were written on a connection. -/
def lineCount (server : Server) (i : Nat) : Nat :=
  ((server.connections[i]?).map fun c => c.written.length).getD 0

/-- What was written on a connection behind the first `n` response lines. -/
def outputAfter (server : Server) (i n : Nat) : List UInt8 :=
  ((server.connections[i]?).map (·.outputAfter n)).getD []

/-- A connection reads once, or reads the end of its stream, and answers what is in it. -/
def serveRead (s : Service) (delivered : Bool) (i : Nat) (server : Server) (bytes : List UInt8) :
    Server :=
  let server := server.step s (.read i bytes)
  server.run s (List.replicate (server.queueLength i) (.respond i delivered))

/-- A connection reads several times, and answers each time. -/
def serveReads (s : Service) (delivered : Bool) (i : Nat) (server : Server)
    (reads : List (List UInt8)) : Server :=
  reads.foldl (serveRead s delivered i) server

/-- A requested stop is carried out. -/
def settle (s : Service) (server : Server) : Server :=
  if server.cancellation.isCancelled then server.run s [.stop, .finish] else server

end Server

/-! ## Links -/

/-- A client's end of a connection. -/
structure Link where
  /-- The connection of the server that it belongs to, if any. -/
  connection : Option Nat
  reader : LineReader := {}
  /-- How many of the connection's response lines are already on their way. -/
  taken : Nat := 0
  /-- Whether the client is still there to take answers. -/
  present : Bool := true
  deriving Repr, DecidableEq

/-- A server with its clients. -/
structure Loopback where
  service : Service
  server : Server := {}
  links : List Link := []
  caches : List Cache := []
  /-- An identity above those of all sockets so far. -/
  freshIdentity : Nat := 1

namespace Loopback

/-! ## The server -/

/-- Let the server do what it has to do. -/
def settle (l : Loopback) : Loopback := { l with server := l.server.settle l.service }

/-- Start the server. A server with a peer looks after it at once. -/
def start (l : Loopback) (peerAlive : Bool) : Except IoError Unit × Loopback :=
  match l.server.start l.freshIdentity with
  | (.error e, server) => (.error e, { l with server := server })
  | (.ok (), server) =>
    (.ok (), { l with
      server := (server.step l.service (.peerCheck peerAlive)).settle l.service,
      freshIdentity := l.freshIdentity + 1 })

/-- Request the stop. Tells whether this was the first request. -/
def cancel (l : Loopback) (reason : StopReason) : Bool × Loopback :=
  (!l.server.cancellation.isCancelled,
    settle { l with server := l.server.step l.service (.use 0 (.cancel reason)) })

/-- Put something else at the path. -/
def replace (l : Loopback) (path : SocketPath) : Loopback :=
  { l with server := l.server.step l.service (.pathChanged path) }

/-- Put the listening socket of somebody else at the path. -/
def replaceBySocket (l : Loopback) : Loopback :=
  let l' := l.replace (.holds (.socket l.freshIdentity .reached))
  { l' with freshIdentity := l.freshIdentity + 1 }

/-! ## Clients -/

/-- Connect to the path. The new link is known by its number. -/
def connect (l : Loopback) (attempts : Nat) : Except IoError Nat × Loopback :=
  match SocketPath.connectRetrying attempts fun _ => l.server.path with
  | .error e => (.error e, l)
  | .ok identity =>
    let own := l.server.socket = some identity ∧ l.server.isRunning
    (.ok l.links.length, { l with
      links := l.links ++
        [{ connection := if own then some l.server.connections.length else none }],
      server := if own then l.server.step l.service .accept else l.server })

/-- The reads reach the server, which answers them. -/
def deliver (l : Loopback) (link : Nat) (reads : List (List UInt8)) : Loopback :=
  match l.links[link]? with
  | some { connection := some i, present, .. } =>
    settle { l with server := l.server.serveReads l.service present i reads }
  | _ => l

/-- A client writes bytes at once. -/
def send (l : Loopback) (link : Nat) (bytes : List UInt8) : Loopback :=
  l.deliver link (readsOf bytes)

/-- A client ends its stream. -/
def endStream (l : Loopback) (link : Nat) : Loopback := l.deliver link [[]]

/-- A client goes away. -/
def drop (l : Loopback) (link : Nat) : Loopback :=
  { l with links := l.links.modify link fun k => { k with present := false } }.endStream link

/-- What the server has written is on its way to the client, cut into reads of the given sizes. -/
def collect (l : Loopback) (link : Nat) (sizes : List Nat) : Loopback :=
  { l with links := l.links.modify link fun k =>
      match k.connection with
      | none => k
      | some i =>
        { k with reader := k.reader.expect (pieces sizes (l.server.outputAfter i k.taken)),
                 taken := l.server.lineCount i } }

/-- A client reads a line; no bytes stand for the end of the stream. -/
def readLine (l : Loopback) (link : Nat) : List UInt8 × Loopback :=
  match l.links[link]? with
  | none => ([], l)
  | some k =>
    (k.reader.next.1, { l with links := l.links.set link { k with reader := k.reader.next.2 } })

/-- A client reads a line that the server has written. -/
def receive (l : Loopback) (link : Nat) : List UInt8 × Loopback := (l.collect link []).readLine link

/-- A client asks for a specifier. The bytes of its request arrive in reads of the sizes
    `requestSizes`, and those of the answer in reads of the sizes `answerSizes`. -/
def askCut (requestSizes answerSizes : List Nat) (link : Nat) (spec : String) (l : Loopback) :
    Except ClientError Answer × Loopback :=
  match Client.request spec with
  | .error e => (.error e, l)
  | .ok bytes =>
    let l := (l.deliver link (pieces requestSizes bytes)).collect link answerSizes
    (Client.answer (l.readLine link).1, (l.readLine link).2)

/-- A client asks for a specifier; its request arrives in the largest reads. -/
def ask (link : Nat) (spec : String) (l : Loopback) : Except ClientError Answer × Loopback :=
  l.askCut (List.replicate (byteLength spec.toList / readSize) (readSize - 1)) [] link spec

/-! ## Clients with caches -/

/-- Make an empty cache. It is known by its number. -/
def openCache (l : Loopback) (capacity : Nat) : Nat × Loopback :=
  (l.caches.length, { l with caches := l.caches ++ [.ofCapacity capacity] })

/-- How many answers a cache holds. -/
def cacheSize (l : Loopback) (cache : Nat) : Nat := ((l.caches[cache]?).map Cache.size).getD 0

/-- A client asks for a specifier through a cache. -/
def askCached (cache link : Nat) (spec : String) (l : Loopback) :
    Except ClientError Answer × Loopback :=
  match l.caches[cache]? with
  | none => l.ask link spec
  | some c =>
    match c.ask spec (ask link spec) l with
    | (answer, c, l) => (answer, { l with caches := l.caches.set cache c })

end Loopback

end DepSpec
