import DepSpec.Service.Settings

set_option autoImplicit false

/-! # Cutting requests from a stream

A `Framer` takes the bytes of a connection as they arrive and gives back requests. With line
framing a request ends at a line feed, with or without a carriage return before it, and bytes
without one are kept until it comes or the stream ends; with chunk framing every read is a request
of its own. A request that is longer than the limit gives a single mark in its place, and the rest
of such a line is thrown away as it arrives.

The framer remembers how much of its buffer holds no line feed (`scanned`), so that every byte is
looked at once. `Frame.ofStream` says what all this amounts to for a whole stream at once. -/

namespace DepSpec

open Text

/-! ## Frames -/

/-- A unit of work cut from a stream. -/
inductive Frame where
  | request (text : String)
  /-- A request over the limit, thrown away. -/
  | tooLarge
  deriving Repr, DecidableEq

/-- The line feed, which ends a line. -/
def lineFeed : UInt8 := 10

/-- The carriage return, ignored before a line feed. -/
def carriageReturn : UInt8 := 13

namespace Frame

/-- The line without one carriage return at its end. -/
def withoutReturn (line : List UInt8) : List UInt8 :=
  if line.getLast? = some carriageReturn then line.dropLast else line

/-- The request on a line. -/
def ofLine (line : List UInt8) : Frame :=
  .request (String.ofList (decodeText (withoutReturn line)))

/-! ## A stream as a whole -/

/-- The frame of a line, its line feed aside, under a limit that counts a carriage return. -/
def ofLimited (maxBytes : Nat) (line : List UInt8) : Frame :=
  if maxBytes < line.length then .tooLarge else ofLine line

/-- The lines that a stream completes, and the bytes behind the last line feed. -/
def cutLines : List UInt8 → List (List UInt8) × List UInt8
  | [] => ([], [])
  | b :: bytes =>
    if b = lineFeed then ([] :: (cutLines bytes).1, (cutLines bytes).2)
    else match cutLines bytes with
      | ([], tail) => ([], b :: tail)
      | (line :: lines, tail) => ((b :: line) :: lines, tail)

/-- The frames of a whole stream with line framing: one for each line, and one for a nonempty
    tail. -/
def ofStream (maxBytes : Nat) (bytes : List UInt8) : List Frame :=
  (cutLines bytes).1.map (ofLimited maxBytes) ++
    (if (cutLines bytes).2 = [] then [] else [ofLimited maxBytes (cutLines bytes).2])

end Frame

/-! ## The framer -/

/-- The state of cutting one stream. -/
structure Framer where
  framing : Framing
  maxBytes : Nat
  /-- Bytes that have not become a frame yet. -/
  buffer : List UInt8 := []
  /-- How many bytes at the front of the buffer are known to hold no line feed. -/
  scanned : Nat := 0
  /-- Whether the line at the front is over the limit and already told so. -/
  discarding : Bool := false
  deriving Repr, DecidableEq

namespace Framer

/-- A framer that has seen nothing. -/
def fresh (framing : Framing) (maxBytes : Nat) : Framer :=
  { framing := framing, maxBytes := maxBytes }

/-- The number of bytes that have not become a frame yet. -/
def pending (f : Framer) : Nat := f.buffer.length

/-- Where the first line feed of the buffer is, looked for behind what is scanned. -/
def lineEnd? (f : Framer) : Option Nat :=
  ((f.buffer.drop f.scanned).findIdx? (· == lineFeed)).map (f.scanned + ·)

/-- The frame of the line that ends at a position, if it makes one. -/
def lineFrame? (f : Framer) (pos : Nat) : Option Frame :=
  if f.discarding then none
  else if f.maxBytes < pos then some .tooLarge
  else some (Frame.ofLine (f.buffer.take pos))

/-- The framer behind the line that ends at a position. -/
def skipLine (f : Framer) (pos : Nat) : Framer :=
  { f with buffer := f.buffer.drop (pos + 1), scanned := 0, discarding := false }

theorem lineEnd?_lt {f : Framer} {pos : Nat} (h : f.lineEnd? = some pos) :
    pos < f.buffer.length := by
  unfold lineEnd? at h
  obtain ⟨offset, hoffset, rfl⟩ := Option.map_eq_some_iff.1 h
  obtain ⟨hlt, -⟩ := List.findIdx?_eq_some_iff_getElem.1 hoffset
  rw [List.length_drop] at hlt
  omega

/-- Take all complete lines off the buffer. -/
def takeLines (f : Framer) : List Frame × Framer :=
  match _ : f.lineEnd? with
  | none => ([], f)
  | some pos =>
    ((f.lineFrame? pos).toList ++ (takeLines (f.skipLine pos)).1, (takeLines (f.skipLine pos)).2)
termination_by f.buffer.length
decreasing_by
  all_goals
    have := lineEnd?_lt ‹f.lineEnd? = some pos›
    simp only [skipLine, List.length_drop]
    omega

/-- What is left in the buffer holds no line feed. If it is over the limit it is thrown away, and
    the line it belongs to is told once. -/
def limit (f : Framer) : List Frame × Framer :=
  if f.maxBytes < f.buffer.length then
    (if f.discarding then [] else [.tooLarge],
      { f with buffer := [], scanned := 0, discarding := true })
  else ([], { f with scanned := f.buffer.length })

/-- The frames that a read completes. -/
def push (f : Framer) (bytes : List UInt8) : List Frame × Framer :=
  match f.framing with
  | .chunk =>
    if f.maxBytes < bytes.length then ([.tooLarge], f)
    else ([.request (String.ofList (decodeText bytes))], f)
  | .newline =>
    let (lines, f) := takeLines { f with buffer := f.buffer ++ bytes }
    let (more, f) := f.limit
    (lines ++ more, f)

/-- The request that the end of the stream completes, if any; the framer starts afresh. -/
def finish (f : Framer) : Option Frame × Framer :=
  (if f.framing = .chunk || f.discarding || f.buffer.isEmpty then none
    else some (Frame.ofLine f.buffer),
    { f with buffer := [], scanned := 0, discarding := false })

/-- The frames of several reads, one behind the other. -/
def pushAll (f : Framer) : List (List UInt8) → List Frame × Framer
  | [] => ([], f)
  | bytes :: reads =>
    let (frames, f) := f.push bytes
    let (more, f) := f.pushAll reads
    (frames ++ more, f)

end Framer

end DepSpec
