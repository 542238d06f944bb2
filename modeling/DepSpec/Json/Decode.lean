import DepSpec.Json.Basic

set_option autoImplicit false

/-! # Typed views of JSON values

How records and variants are found in a JSON value. A record is an object with its fields in any
order, or an array of the fields in their order. A variant is an object with one field, or a bare
string if it carries no value. -/

namespace DepSpec

open Text

namespace Json

/-- A string. -/
def text? : Json → Option String
  | .string text => text
  | _ => none

/-- A whole number that fits a word, written without sign, fraction and exponent. -/
def word? : Json → Option UInt64
  | .number literal => readWord? literal
  | _ => none

/-- A list. -/
def list? : Json → Option (List Json)
  | .array items => some items
  | _ => none

/-- A list of values that can all be decoded. -/
def listOf? {α : Type} (decode : Json → Option α) (v : Json) : Option (List α) := do
  (← v.list?).mapM decode

/-- A value that may be `null`. -/
def optional? {α : Type} (decode : Json → Option α) : Json → Option (Option α)
  | .null => some none
  | v => (decode v).map some

/-- The name of a variant and the value that it carries. -/
def variant? : Json → Option (String × Option Json)
  | .string (some name) => some (name, none)
  | .object [(some name, value)] => some (name, some value)
  | _ => none

/-- The values of the named fields of a record, in the order of the names; `none` stands for a
    missing one. Fields of other names are left out or refused as `ignoreOthers` says. A
    repeated field is refused, and so is an array with more items than names. -/
def record? (names : List String) (ignoreOthers : Bool) : Json → Option (List (Option Json))
  | .array items =>
    if items.length ≤ names.length then
      some (items.map some ++ List.replicate (names.length - items.length) none)
    else none
  | .object fields => do
    let fields ← fields.mapM fun (name, value) => name.map fun name => (name, value)
    if !ignoreOthers && fields.any (fun (name, _) => !names.contains name) then none
    else names.mapM fun name =>
      match fields.filter (fun field => field.1 == name) with
      | [] => some none
      | [(_, value)] => some (some value)
      | _ => none
  | _ => none

end Json

end DepSpec
