import DepSpec.Service.Loopback

set_option autoImplicit false

/-! # A client in conversation with a server

A `Conversation` is a server, one of its clients, and the bytes on their way between them. The two
sides go on independently. A read takes any number of the bytes that are on their way, on either
side, so one read may end a request and begin the next, and the server may answer before it has
read the whole request. Only the client waits: it asks again when it has its answer.

What else happens to the server is not part of the conversation, as long as nobody else closes the
client's connection (`Server.Event.concerns`). -/

namespace DepSpec

open Text

/-- Whether an event is about a connection; the last step of a stop is about all of them. -/
def Server.Event.concerns (i : Nat) : Server.Event → Bool
  | .read j _ | .respond j _ | .lose j | .notice j => j == i
  | .finish => true
  | _ => false

/-- A client that asks one specifier after the other. -/
structure Conversation where
  server : Server
  /-- The connection of the client. -/
  connection : Nat
  /-- What the client has asked. -/
  asked : List String := []
  /-- What it was answered. The last ask may still wait for its answer. -/
  answers : List (Except ClientError Answer) := []
  /-- Bytes that the client has written and the server has not read. -/
  outbound : List UInt8 := []
  /-- Bytes that the server has written and the client has not read. -/
  inbound : List UInt8 := []
  /-- What the client has read of the answer that it waits for. -/
  reader : LineReader := {}
  deriving Repr

namespace Conversation

/-- A step of a conversation. A read of size `n` takes `n + 1` bytes, or all there are. -/
inductive Act where
  | ask (spec : String)
  /-- The server reads. -/
  | deliver (n : Nat)
  /-- The server answers its next frame. -/
  | respond
  /-- The client reads. -/
  | receive (n : Nat)
  /-- Something happens to the server that is not about this client. -/
  | elsewhere (e : Server.Event)
  deriving Repr, DecidableEq

/-- Whether an act brings the answer closer. -/
def Act.isWork : Act → Bool
  | .deliver _ | .respond | .receive _ => true
  | _ => false

/-- A client has connected to a listening server. -/
def opened (s : Service) (server : Server) : Conversation :=
  { server := server.step s .accept, connection := server.connections.length }

variable (c : Conversation)

/-- Whether the client has all its answers. -/
def isIdle : Bool := c.asked.length == c.answers.length

/-- The client's connection, as a test on it. -/
def connectionIs (p : Connection → Bool) : Bool := (c.server.connections[c.connection]?).any p

/-- The client takes a line for the answer that it waits for. -/
def takeAnswer : Conversation :=
  { c with answers := c.answers ++ [Client.answer c.reader.next.1], reader := c.reader.next.2 }

/-- What an act does to a conversation. An act that cannot happen changes nothing. -/
def step (s : Service) : Act → Conversation
  | .ask spec =>
    if c.isIdle then
      match Client.request spec with
      | .ok bytes => { c with asked := c.asked ++ [spec], outbound := c.outbound ++ bytes }
      | .error e => { c with asked := c.asked ++ [spec], answers := c.answers ++ [.error e] }
    else c
  | .deliver n =>
    match c.outbound with
    | [] => c
    | b :: bytes =>
      if c.connectionIs (·.isWaiting) then
        { c with server := c.server.step s (.read c.connection (b :: bytes.take n)),
                 outbound := bytes.drop n }
      else c
  | .respond =>
    if c.server.queueLength c.connection = 0 then c
    else
      let server := c.server.step s (.respond c.connection true)
      { c with server := server,
               inbound := c.inbound ++
                 server.outputAfter c.connection (c.server.lineCount c.connection) }
  | .receive n =>
    if c.isIdle then c
    else
      match c.inbound with
      | [] => if c.connectionIs (·.isClosed) then c.takeAnswer else c
      | b :: bytes =>
        let read := b :: bytes.take n
        let c := { c with inbound := bytes.drop n, reader := c.reader.expect [read] }
        if lineFeed ∈ read then c.takeAnswer else c
  | .elsewhere e =>
    if e.concerns c.connection then c else { c with server := c.server.step s e }

/-- What a sequence of acts does to a conversation. -/
def run (s : Service) (acts : List Act) : Conversation := acts.foldl (fun c a => c.step s a) c

theorem run_append (s : Service) (acts more : List Act) :
    c.run s (acts ++ more) = (c.run s acts).run s more :=
  List.foldl_append ..

theorem run_concat (s : Service) (acts : List Act) (a : Act) :
    c.run s (acts ++ [a]) = (c.run s acts).step s a :=
  List.foldl_append ..

end Conversation

end DepSpec
