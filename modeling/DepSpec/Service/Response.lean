import DepSpec.Json.Reader
import DepSpec.Service.Settings
import DepSpec.Specifier.Classify
import DepSpec.Specifier.Json

set_option autoImplicit false

/-! # Response lines

Each request is answered by one line of JSON. The result envelope tells success from failure by
the field `Ok` or `Err`; the legacy envelope sends the bare specifier and marks a failure as
`Invalid`. Only the result envelope is ever read back. -/

namespace DepSpec

open Text

/-- What became of a request: a specifier, or why there is none. -/
abbrev Outcome := Except ClassifyError Specifier

/-- What a client is told: a specifier, or the text of the failure. -/
abbrev Answer := Except String Specifier

namespace Outcome

/-- The failure of a request that is longer than `limit` bytes. -/
def tooLarge (limit : UInt64) : ClassifyError :=
  .invalid ⟨"ETOOLARGE",
    "request exceeds " ++ String.ofList (writeWord limit) ++ " bytes"⟩

/-- What the client is told of an outcome. -/
def answer : Outcome → Answer
  | .ok spec => .ok spec
  | .error e => .error e.wireText

/-- An outcome in an envelope. -/
def toJson (outcome : Outcome) : Envelope → Json
  | .result =>
    match outcome with
    | .ok spec => .variant "Ok" spec.toJson
    | .error e => .variant "Err" (.ofText e.wireText)
  | .legacy =>
    match outcome with
    | .ok spec => spec.toJson
    | .error e => .variant "Invalid" (.ofText e.wireText)

/-- The characters of a response line, its line feed included. -/
def lineChars (outcome : Outcome) (envelope : Envelope) : List Char :=
  (toJson outcome envelope).chars ++ ['\n']

/-- The response line, its line feed included. -/
def line (outcome : Outcome) (envelope : Envelope) : String :=
  String.ofList (lineChars outcome envelope)

end Outcome

namespace Answer

/-- The answer that a JSON value in the result envelope denotes. -/
def ofJson? (v : Json) : Option Answer := do
  match ← v.variant? with
  | ("Ok", some spec) => (Specifier.ofJson? spec).map .ok
  | ("Err", some text) => text.text?.map .error
  | _ => none

/-- The answer on a response line in the result envelope; blanks at the end of the line are
    ignored. -/
def ofLine? (line : String) : Option Answer :=
  (Json.ofChars? (trimEnd line.toList)).bind ofJson?

end Answer

end DepSpec
