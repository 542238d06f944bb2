import DepSpec.Service.Frame

set_option autoImplicit false

/-! # Reading lines

What a service has written arrives at a client in reads that are cut anywhere. A `LineReader` puts
the lines together again: it takes reads until there is a line feed, and keeps what stands behind
it for the next line. -/

namespace DepSpec

/-- The first line with its line feed, and the bytes behind it, if there is a line feed. -/
def cutLine? (bytes : List UInt8) : Option (List UInt8 × List UInt8) :=
  match bytes.dropWhile (· != lineFeed) with
  | [] => none
  | _ :: rest => some (bytes.takeWhile (· != lineFeed) ++ [lineFeed], rest)

/-- The receiving end of a connection. -/
structure LineReader where
  /-- Bytes that were read and belong to no line yet. -/
  buffer : List UInt8 := []
  /-- The reads that are still to come. -/
  incoming : List (List UInt8) := []
  deriving Repr, DecidableEq

namespace LineReader

/-- More reads are on their way. -/
def expect (r : LineReader) (reads : List (List UInt8)) : LineReader :=
  { r with incoming := r.incoming ++ reads }

/-- Read up to a line feed, or to the end of what comes; no bytes at all say that nothing came. -/
def nextFrom (buffer : List UInt8) : List (List UInt8) → List UInt8 × LineReader
  | [] =>
    match cutLine? buffer with
    | some (line, rest) => (line, { buffer := rest })
    | none => (buffer, {})
  | bytes :: reads =>
    match cutLine? buffer with
    | some (line, rest) => (line, { buffer := rest, incoming := bytes :: reads })
    | none => nextFrom (buffer ++ bytes) reads

/-- Read a line. -/
def next (r : LineReader) : List UInt8 × LineReader := nextFrom r.buffer r.incoming

end LineReader

end DepSpec
