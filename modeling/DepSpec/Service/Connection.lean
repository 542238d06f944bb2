import DepSpec.Service.Frame
import DepSpec.Service.Response

set_option autoImplicit false

/-! # A connection, as the service sees it

A connection turns what it reads into frames and answers them in order, one response line each. It
reads again only when every frame is answered, so at any time it either waits for bytes or has
frames in its queue. An empty read marks the end of the stream; a last request without a line end
is still answered before the connection closes.

A connection also closes when a response cannot be written, when an answer was fatal to the whole
service, and when the service shuts down. What was read and what was written are kept, so that one
can be told from the other. -/

namespace DepSpec

open Text

/-! ## What is served -/

/-- What a service does with its requests: the capabilities that classify them, and the settings. -/
structure Service where
  caps : Capabilities
  settings : Settings := {}

namespace Service

/-- The most bytes that a request may have. -/
def maxBytes (s : Service) : Nat := s.settings.maxRequestBytes.toNat

/-- What becomes of a frame. -/
def outcome (s : Service) : Frame → Outcome
  | .request text => s.caps.classify text
  | .tooLarge => .error (Outcome.tooLarge s.settings.maxRequestBytes)

/-- Whether the answer to a frame is fatal to the service. -/
def isFatal (s : Service) (frame : Frame) : Bool :=
  match s.outcome frame with
  | .ok _ => false
  | .error e => e.isFatal

/-- The response line to a frame. -/
def line (s : Service) (frame : Frame) : String := (s.outcome frame).line s.settings.envelope

end Service

/-! ## States of a connection -/

/-- Why a connection was closed. -/
inductive Closure where
  /-- The stream ended and everything is answered. -/
  | finished
  /-- Reading or writing failed. -/
  | lost
  /-- The last answer was fatal to the service. -/
  | fatal
  /-- The service shuts down. -/
  | shutdown
  deriving Repr, DecidableEq

/-- How far a connection is. -/
inductive ConnectionPhase where
  | reading
  /-- The stream has ended, and what is queued is still to be answered. -/
  | flushing
  | closed (why : Closure)
  deriving Repr, DecidableEq

/-- A connection to one client. -/
structure Connection where
  framer : Framer
  phase : ConnectionPhase := .reading
  /-- Frames that are not answered yet, in order. -/
  queue : List Frame := []
  /-- What was read so far, read by read. -/
  reads : List (List UInt8) := []
  /-- The response lines written so far, in order. -/
  written : List String := []
  deriving Repr, DecidableEq

namespace Connection

/-- A connection that nothing has happened on. -/
def fresh (s : Service) : Connection := { framer := .fresh s.settings.framing s.maxBytes }

/-- Whether the connection waits for bytes. -/
def isWaiting (c : Connection) : Bool := c.phase == .reading && c.queue.isEmpty

/-- Whether the connection is closed. -/
def isClosed (c : Connection) : Bool :=
  match c.phase with
  | .closed _ => true
  | _ => false

/-- Close the connection; what is queued is never answered. -/
def close (c : Connection) (why : Closure) : Connection :=
  { c with phase := .closed why, queue := [] }

/-- Close the connection if the stream has ended and everything is answered. -/
def closeIfDone (c : Connection) : Connection :=
  if c.phase = .flushing ∧ c.queue = [] then c.close .finished else c

/-! ## Reading -/

/-- The bytes of one read arrive; no bytes mark the end of the stream. A connection that does not
    wait for bytes does not read them. -/
def read (c : Connection) (bytes : List UInt8) : Connection :=
  if !c.isWaiting then c
  else if bytes = [] then
    closeIfDone
      { c with framer := c.framer.finish.2, queue := c.framer.finish.1.toList, phase := .flushing }
  else
    { c with framer := (c.framer.push bytes).2, queue := (c.framer.push bytes).1,
             reads := c.reads ++ [bytes] }

/-! ## Answering -/

/-- Whether the next response, written in full, is fatal to the service. -/
def isFatalNext (c : Connection) (s : Service) : Bool :=
  match c.queue with
  | [] => false
  | frame :: _ => s.isFatal frame

/-- Answer the first frame of the queue. The response is written whole or not at all, as
    `delivered` tells; a connection that cannot write is lost. -/
def respond (c : Connection) (s : Service) (delivered : Bool) : Connection :=
  match c.queue with
  | [] => c
  | frame :: queue =>
    if !delivered then c.close .lost
    else
      let c := { c with written := c.written ++ [s.line frame] }
      if s.isFatal frame then c.close .fatal else closeIfDone { c with queue := queue }

/-- The bytes of the response lines behind the first `n`. -/
def outputAfter (c : Connection) (n : Nat) : List UInt8 :=
  (c.written.drop n).flatMap fun line => encodeText line.toList

/-- The bytes of all response lines written so far. -/
def output (c : Connection) : List UInt8 := c.outputAfter 0

end Connection

end DepSpec
