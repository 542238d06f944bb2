import DepSpec.Resolution.Resolve
import DepSpec.Specifier.Basic

set_option autoImplicit false

/-! # Classification

From raw text to a classified specifier, by way of a resolver and a range parser that are given
as `Capabilities`. The resolver is asked once, about the trimmed text. Its answer settles the
specifier, or leaves a range text for the parser (`Plan`). What the parser answers is written in
the operators that are sent.

A failure tells who is at fault. A refusal of either capability is passed on in its own words. An
answer of a kind unknown here, or without a field that its kind needs, is reported as such. An
operator outside the vocabulary means that the parser and this library no longer agree, and is
fatal to a process that serves such answers. -/

namespace DepSpec

open Text

/-! ## Failures -/

/-- Why a specifier could not be classified. -/
inductive ClassifyError where
  | invalid (refusal : Refusal)
  | unknownKind (kind : String)
  | unknownAliasKind (kind : String)
  | unrecognizedOperator (operator : String)
  deriving Repr, DecidableEq

namespace ClassifyError

def code : ClassifyError → String
  | .invalid r => r.code
  | .unknownKind _ => "EUNKNOWNTYPE"
  | .unknownAliasKind _ => "EUNKNOWNALIASSUBTYPE"
  | .unrecognizedOperator _ => "EUNRECOGNIZEDCOMPARATOR"

/-- What went wrong, without the code. -/
def message : ClassifyError → String
  | .invalid r => r.message
  | .unknownKind kind => "unknown spec type '" ++ kind ++ "'"
  | .unknownAliasKind kind => "unknown alias sub spec type '" ++ kind ++ "'"
  | .unrecognizedOperator op => "unrecognized comparator operator '" ++ op ++ "'"

/-- Code and message on one line, as error responses carry them. -/
def wireText (e : ClassifyError) : String := e.code ++ ": " ++ e.message

/-- The error by itself. A refusal shows its code, the others do without. -/
def text : ClassifyError → String
  | .invalid r => r.text
  | e => e.message

/-- Whether the input itself was turned down. -/
def isInvalid : ClassifyError → Bool
  | .invalid _ => true
  | _ => false

/-- Whether a process that serves answers must not go on. -/
def isFatal : ClassifyError → Bool
  | .unrecognizedOperator _ => true
  | _ => false

end ClassifyError

/-! ## Capabilities -/

/-- The two services that classification relies on. -/
structure Capabilities where
  /-- What kind of specifier a text is for a package of this name. -/
  resolve : String → String → Except Refusal Resolution
  /-- What a range text stands for. -/
  parseRange : String → Except Refusal ParsedRange

/-- The rules of npm. -/
def Capabilities.npm : Capabilities where
  resolve name spec := (DepSpec.resolve (some name) spec).mapError SpecError.refusal
  parseRange text := (readRange text).mapError SpecError.refusal

/-! ## What an answer leaves to do -/

/-- What is left to do once the resolver has answered. -/
inductive Plan where
  /-- The specifier is settled. -/
  | done (spec : Specifier)
  /-- The specifier is a range, still to be parsed. -/
  | range (text : String)
  /-- The specifier is an alias for a range of the named package, still to be parsed. -/
  | aliasRange (name text : String)
  deriving Repr, DecidableEq

namespace Plan

/-- A field that the kind of an answer needs. -/
def need (r : Resolution) (field : String) : Option String → Except ClassifyError String
  | some value => .ok value
  | none => .error (.unknownKind (r.kind ++ " (missing " ++ field ++ ")"))

/-- A path without the `file:` in front. -/
def localPath (raw : String) : String :=
  String.ofList ((after? "file:".toList raw.toList).getD raw.toList)

/-- An alias target, for the package it names; one without a name stands for itself. -/
def ofTarget (target : Resolution) : Except ClassifyError Plan :=
  match target.kind with
  | "tag" => do
    let tag ← need target "fetchSpec" target.fetch
    .ok (.done (match target.name with
      | some name => .alias name none (.tag tag)
      | none => .tag tag))
  | "version" | "range" => do
    let text ← need target "fetchSpec" target.fetch
    .ok (match target.name with
      | some name => .aliasRange name text
      | none => .range text)
  | kind => .error (.unknownAliasKind kind)

/-- What the resolver's answer means. -/
def ofResolution (r : Resolution) : Except ClassifyError Plan :=
  match r.kind with
  | "git" => (need r "saveSpec" r.save).map fun url => .done (.git url)
  | "version" | "range" => (need r "fetchSpec" r.fetch).map .range
  | "tag" => (need r "fetchSpec" r.fetch).map fun name => .done (.tag name)
  | "file" => .ok (.done (.file (localPath r.raw)))
  | "directory" => .ok (.done (.directory (localPath r.raw)))
  | "remote" => .ok (.done (.remote r.raw))
  | "alias" =>
    match r.target with
    | none => .error (.unknownKind "alias (missing subSpec)")
    | some target => ofTarget target
  | kind => .error (.unknownKind kind)

/-- The range text that is handed to the parser. -/
def rangeText? : Plan → Option String
  | .done _ => none
  | .range text => some text
  | .aliasRange _ text => some text

end Plan

/-! ## Classification -/

namespace Capabilities

/-- The package name that the resolver is asked about; classification does not use it. -/
def placeholderName : String := "foo"

/-- The text that the resolver is asked about. -/
def trimmed (raw : String) : String := String.ofList (trim raw.toList)

/-- What the resolver's answer leaves to do. -/
def plan (caps : Capabilities) (raw : String) : Except ClassifyError Plan := do
  let r ← (caps.resolve placeholderName (trimmed raw)).mapError .invalid
  Plan.ofResolution r

/-- A range text in the operators that are sent. -/
def constraint (caps : Capabilities) (text : String) : Except ClassifyError Constraint := do
  let parsed ← (caps.parseRange text).mapError .invalid
  parsed.constraint.mapError .unrecognizedOperator

/-- Classify one raw specifier; blanks around it are ignored. -/
def classify (caps : Capabilities) (raw : String) : Except ClassifyError Specifier := do
  match ← caps.plan raw with
  | .done spec => .ok spec
  | .range text => (caps.constraint text).map .range
  | .aliasRange name text =>
    (caps.constraint text).map fun range => .alias name none (.range range)

/-! ## What the capabilities are asked -/

/-- A question to a capability. -/
inductive Inquiry where
  | resolve (name spec : String)
  | parseRange (text : String)
  deriving Repr, DecidableEq

/-- The questions that classifying a text asks, in order. -/
def inquiries (caps : Capabilities) (raw : String) : List Inquiry :=
  .resolve placeholderName (trimmed raw) ::
    match caps.plan raw with
    | .ok plan => plan.rangeText?.toList.map .parseRange
    | .error _ => []

end Capabilities

end DepSpec
