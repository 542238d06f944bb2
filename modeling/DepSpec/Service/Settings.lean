import DepSpec.Json.Decode
import DepSpec.Json.Reader
import DepSpec.Text.Utf8

set_option autoImplicit false

/-! # Settings of a service

How a service cuts requests from a stream, how it wraps answers, how large a request may be, and
how often it looks whether its peer still lives. A configuration file is a JSON record of these
four fields; each may be missing and then has its default, and no other field is allowed. -/

namespace DepSpec

open Text

/-- How requests are cut from the bytes of a connection. -/
inductive Framing where
  /-- A request for each line, however the bytes arrive. -/
  | newline
  /-- A request for each read. -/
  | chunk
  deriving Repr, DecidableEq

/-- How answers are wrapped. -/
inductive Envelope where
  /-- A success and a failure in objects of their own. -/
  | result
  /-- The bare specifier, and failures in an object. -/
  | legacy
  deriving Repr, DecidableEq

/-- The settings of a service. -/
structure Settings where
  /-- The milliseconds between two looks at the peer. -/
  livenessIntervalMs : UInt64 := 3000
  framing : Framing := .newline
  envelope : Envelope := .result
  /-- The most bytes that a request may have. -/
  maxRequestBytes : UInt64 := 65536
  deriving Repr, DecidableEq

/-- Why a configuration file gives no configuration. -/
inductive SettingsError where
  /-- There is no such file, or its bytes are no text. -/
  | unreadable
  /-- The text is not a configuration. -/
  | malformed
  deriving Repr, DecidableEq

namespace Framing

/-- The framing with a name. -/
def ofName? : String → Option Framing
  | "newline" => some .newline
  | "chunk" => some .chunk
  | _ => none

end Framing

namespace Envelope

/-- The envelope with a name. -/
def ofName? : String → Option Envelope
  | "result" => some .result
  | "legacy" => some .legacy
  | _ => none

end Envelope

namespace Settings

/-- A variant that carries no value. -/
def choice? {α : Type} (ofName? : String → Option α) (v : Json) : Option α := do
  match ← v.variant? with
  | (name, none) | (name, some .null) => ofName? name
  | _ => none

/-- The value of a field, or its default if the field is missing. -/
def orDefault? {α : Type} (decode : Json → Option α) (default : α) : Option Json → Option α
  | none => some default
  | some v => decode v

/-- The fields of a configuration. -/
def fieldNames : List String :=
  ["liveness_interval_ms", "framing", "envelope", "max_request_bytes"]

/-- The configuration that a JSON value denotes. -/
def ofJson? (v : Json) : Option Settings := do
  match ← v.record? fieldNames false with
  | [interval, framing, envelope, maxBytes] => do
    let base : Settings := {}
    let interval ← orDefault? Json.word? base.livenessIntervalMs interval
    let framing ← orDefault? (choice? Framing.ofName?) base.framing framing
    let envelope ← orDefault? (choice? Envelope.ofName?) base.envelope envelope
    let maxBytes ← orDefault? Json.word? base.maxRequestBytes maxBytes
    some ⟨interval, framing, envelope, maxBytes⟩
  | _ => none

/-- The configuration that the bytes of a file denote; a file that is not there has none. -/
def ofFile : Option (List UInt8) → Except SettingsError Settings
  | none => .error .unreadable
  | some bytes =>
    let cs := decodeText bytes
    if encodeText cs = bytes then
      match (Json.ofChars? cs).bind ofJson? with
      | some config => .ok config
      | none => .error .malformed
    else .error .unreadable

/-- The configuration of a service that is given a file or none at all. -/
def load : Option (Option (List UInt8)) → Except SettingsError Settings
  | none => .ok {}
  | some file => ofFile file

/-- The time between two looks at the peer, at least a millisecond. -/
def interval (c : Settings) : UInt64 := max c.livenessIntervalMs 1

end Settings

end DepSpec
