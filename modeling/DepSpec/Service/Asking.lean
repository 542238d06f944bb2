import DepSpec.Service.Cache
import DepSpec.Service.LineReader
import DepSpec.Service.SocketPath
import DepSpec.Text.Quoted

set_option autoImplicit false

/-! # Asking a service

A client writes a specifier and a line feed, and then reads one line, the answer. It relies on the
service to answer line by line, so a specifier that holds a line break is never sent.

A client with a cache asks the service only what the cache does not know. Answers are remembered
whichever way they went, failures to get an answer are not. -/

namespace DepSpec

open Text

/-- Why a client has no answer. -/
inductive ClientError where
  /-- The service cannot be reached. -/
  | connect (error : IoError)
  /-- The specifier holds a line break. -/
  | lineBreak (spec : String)
  /-- The service closed the connection without an answer. -/
  | gone
  /-- The line is no answer. -/
  | decode (line : String)
  deriving Repr, DecidableEq

/-- How a client tells that a specifier holds a line break. -/
def ClientError.lineBreakMessage (spec : String) : String :=
  "specifier contains a line break: " ++ quoted spec

namespace Client

/-- Whether a specifier is one line. -/
def isOneLine (spec : String) : Bool := spec.toList.all fun c => c != '\n' && c != '\r'

/-- The bytes that ask for a specifier. -/
def request (spec : String) : Except ClientError (List UInt8) :=
  if isOneLine spec then .ok (encodeText spec.toList ++ [lineFeed]) else .error (.lineBreak spec)

/-- The answer on a line that was read. -/
def answer (bytes : List UInt8) : Except ClientError Answer :=
  if bytes = [] then .error .gone
  else
    let line := decodeText bytes
    match Answer.ofLine? (String.ofList line) with
    | some answer => .ok answer
    | none => .error (.decode (String.ofList (trimEnd line)))

end Client

/-! ## Asking through a cache -/

/-- Ask for a specifier what the cache does not know. `ask` asks the service, whose state is in
    `σ`. -/
def Cache.ask {σ : Type} (cache : Cache) (spec : String)
    (ask : σ → Except ClientError Answer × σ) (s : σ) :
    Except ClientError Answer × Cache × σ :=
  match cache.get? spec with
  | some answer => (.ok answer, cache, s)
  | none =>
    match ask s with
    | (.ok answer, s) => (.ok answer, cache.insert spec answer, s)
    | (.error e, s) => (.error e, cache, s)

end DepSpec
