import DepSpec.Range.Parser
import DepSpec.Resolution.Argument

set_option autoImplicit false

/-! # Resolving specifiers

What kind of specifier a text is. The tests run in a fixed order, and the first that applies
decides: local paths, aliases, hosted repositories, other URLs, bare paths and archives, and last
the registry with versions, ranges and tags.

An alias `npm:` is followed by a package argument, which is resolved in turn; it may not be an
alias again, and must be looked up in a registry. -/

namespace DepSpec

open Text

/-! ## The registry -/

/-- The groups of a range text, or the error that names it. -/
def readRange (text : String) : Except SpecError ParsedRange :=
  match ParsedRange.parse? text with
  | some range => .ok range
  | none => .error (.range text)

namespace Resolution

/-- The tag that an empty specifier stands for. -/
def defaultTag : String := "latest"

/-- What is asked of a registry: a version, a range or a tag. -/
def ofRegistry (name : Option String) (spec : List Char) : Except SpecError Resolution :=
  let text := String.ofList spec
  let fetch := if spec.isEmpty then defaultTag.toList else trim spec
  let wanted := String.ofList fetch
  if (Version.parseLoose? wanted).isSome then
    .ok { kind := "version", raw := text, fetch := some wanted }
  else if (ParsedRange.parse? wanted).isSome then
    .ok { kind := "range", raw := text, fetch := some wanted }
  else if fetch.all isUriSafe then
    .ok { kind := "tag", raw := text, fetch := some wanted }
  else
    .error (.tagName wanted (match name with
      | some name => name ++ "@" ++ text
      | none => text))

/-! ## Everything but aliases -/

/-- A specifier that is no alias; `name` is the package that it is given for. -/
def ofPlain (name : Option String) (spec : List Char) : Except SpecError Resolution :=
  if isLocalPath spec || (afterFile? spec).isSome then .ok (ofFile spec)
  else match Repository.ofChars? spec with
    | some r => .ok (ofRepository spec r)
    | none =>
      if isUrl spec then ofUrl spec
      else if spec.contains '/' || isTarball spec then .ok (ofFile spec)
      else ofRegistry name spec

/-! ## Aliases -/

/-- What follows `npm:`, in any letter case. -/
def afterAlias? (cs : List Char) : Option (List Char) := afterFolded? "npm:".toList cs

/-- An alias for a target. -/
def ofAlias (spec : List Char) (target : Resolution) : Except SpecError Resolution :=
  let text := String.ofList spec
  if target.kind = "alias" then .error (.alias .nested text)
  else if target.isRegistry then .ok { kind := "alias", raw := text, target := some target }
  else .error (.alias .notRegistry text)

/-- The first rule that a package name breaks, as an error. -/
def checkName : Option String → Except SpecError Unit
  | none => .ok ()
  | some name =>
    match PackageName.fault? name.toList with
    | none => .ok ()
    | some fault => .error (.packageName fault name)

/-- The URL of an address in secure-copy form. -/
def secureCopyUrl (address : List Char) : List Char := "git+ssh://".toList ++ address

end Resolution

/-! ## Sizes -/

namespace Argument

theorem length_of_splitName? {arg name spec : List Char} (h : splitName? arg = some (name, spec)) :
    spec.length < arg.length := by
  unfold splitName? at h
  split at h
  · simp only [Option.map_eq_some_iff, Prod.mk.injEq, Prod.exists] at h
    obtain ⟨n, s, hcut, -, rfl⟩ := h
    have := length_of_cut? hcut
    simp; omega
  · exact length_of_cut? h

/-- The specifier inside an argument that is no address. -/
def spec? : Argument → Option (List Char)
  | .bare spec => some spec
  | .named _ spec => some spec
  | .secureCopy _ => none

/-- Taking an argument apart makes no specifier longer. -/
theorem length_of_spec? {arg spec : List Char} (h : (ofChars arg).spec? = some spec) :
    spec.length ≤ arg.length := by
  unfold ofChars at h
  simp only at h
  split at h
  · simp only [spec?, Option.some.injEq] at h; subst h; exact Nat.le_refl _
  split at h
  · simp [spec?] at h
  split at h
  · simp only [spec?, Option.some.injEq] at h; subst h; exact Nat.le_refl _
  split at h
  · next name rest hsplit =>
    simp only [spec?, Option.some.injEq] at h
    subst h
    exact Nat.le_of_lt (length_of_splitName? hsplit)
  split at h
  · simp only [spec?, Option.some.injEq] at h; subst h; exact Nat.zero_le _
  · simp only [spec?, Option.some.injEq] at h; subst h; exact Nat.le_refl _

end Argument

/-! ## Resolving -/

/-- Resolve `spec` as the specifier of the package `name`. -/
def resolveChars (name : Option String) (spec : List Char) : Except SpecError Resolution := do
  Resolution.checkName name
  let resolved ← match _ : Resolution.afterAlias? spec with
    | none => Resolution.ofPlain name spec
    | some arg => do
      let target ← match _ : Argument.ofChars arg with
        | .secureCopy address => Resolution.ofPlain none (Resolution.secureCopyUrl address)
        | .bare inner => resolveChars none inner
        | .named name inner => resolveChars (some (String.ofList name)) inner
      Resolution.ofAlias spec target
  return { resolved with name := name }
termination_by spec.length
decreasing_by
  all_goals
    have hinner : inner.length ≤ arg.length :=
      Argument.length_of_spec? (by simp only [*]; rfl)
    have hrest := length_of_afterFolded? ‹Resolution.afterAlias? spec = some arg›
    have hlead : "npm:".toList.length = 4 := by decide
    omega

/-- Resolve `spec` as the specifier of the package `name`. -/
def resolve (name : Option String) (spec : String) : Except SpecError Resolution :=
  resolveChars name spec.toList

/-- Resolve a package argument. -/
def resolveArgument (arg : String) : Except SpecError Resolution :=
  match Argument.ofChars arg.toList with
  | .bare spec => resolveChars none spec
  | .named name spec => resolveChars (some (String.ofList name)) spec
  | .secureCopy address => resolveChars none (Resolution.secureCopyUrl address)

end DepSpec
