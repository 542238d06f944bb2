import DepSpec.Proofs.Range.UnreadWords
import DepSpec.Proofs.Resolution.Spellings
import DepSpec.Proofs.Specifier.NpmSafety

set_option autoImplicit false

/-! # Letter case of schemes

The letter case of a scheme decides neither what kind of specifier a text is nor why it is none
(`Capabilities.npm_told_of_sameScheme`). What classification tells of an answer of the resolver is
found for each of the resolver's tests (`Resolution.told_ofPlain`), and each of the tests goes the
same way for both spellings. A text with a colon that is no place at all is a range or nothing: its
first word is then not read. -/

namespace DepSpec

open Text

/-! ## What is told of a specifier -/

/-- The kinds of specifiers. -/
inductive SpecifierKind where
  | git
  | range
  | tag
  | file
  | directory
  | remote
  | alias
  deriving Repr, DecidableEq

def Specifier.kind : Specifier → SpecifierKind
  | .git _ => .git
  | .range _ => .range
  | .tag _ => .tag
  | .file _ => .file
  | .directory _ => .directory
  | .remote _ => .remote
  | .alias .. => .alias

namespace Capabilities

/-- The kind of a specifier, or the code of the error. -/
def told (caps : Capabilities) (raw : String) : Except String SpecifierKind :=
  ((caps.classify raw).map Specifier.kind).mapError ClassifyError.code

/-- What is left to do, done. -/
def carryOut (caps : Capabilities) : Plan → Except ClassifyError Specifier
  | .done spec => .ok spec
  | .range text => (caps.constraint text).map .range
  | .aliasRange name text => (caps.constraint text).map fun range => .alias name none (.range range)

theorem classify_eq (caps : Capabilities) (raw : String) :
    caps.classify raw = caps.plan raw >>= caps.carryOut := by
  unfold classify
  cases caps.plan raw with
  | error e => rfl
  | ok plan => cases plan <;> rfl

end Capabilities

namespace Resolution

/-- What classification tells of an answer of the resolver. -/
def told (answer : Except SpecError Resolution) : Except String SpecifierKind :=
  (((answer.mapError fun e => ClassifyError.invalid e.refusal) >>= fun r =>
    Plan.ofResolution r >>= Capabilities.npm.carryOut).map Specifier.kind).mapError
      ClassifyError.code

variable {scheme other : List Char}

/-- The name of the package plays no part. -/
theorem told_withName (answer : Except SpecError Resolution) (name : Option String) :
    told (answer >>= fun r => .ok (r.withName name)) = told answer := by
  cases answer <;> rfl

theorem told_ofFile (spec : List Char) :
    told (.ok (ofFile spec)) = .ok (if isTarball spec then .file else .directory) := by
  have hpath : isTarball ((afterFile? spec).getD spec) = isTarball spec := by
    cases hafter : afterFile? spec with
    | none => rfl
    | some rest => exact (isTarball_of_afterFile? hafter).symm
  rw [ofFile, hpath]
  cases isTarball spec <;> rfl

theorem told_ofRepository (spec : List Char) (r : Repository) :
    told (.ok (ofRepository spec r)) = .ok .git := rfl

theorem told_ofUrl (spec : List Char) :
    told (ofUrl spec) =
      if gitProtocols.contains (protocolOf spec) then .ok .git
      else if webProtocols.contains (protocolOf spec) then .ok .remote
      else .error "EUNSUPPORTEDPROTOCOL" := by
  rw [ofUrl]
  split
  · rfl
  · split <;> rfl

/-- A text with a colon in it is looked up as a range or not at all. -/
theorem told_ofRegistry (h : SameScheme scheme other) (name : Option String) (rest : List Char) :
    told (ofRegistry name (scheme ++ ':' :: rest)) =
      if (ParsedRange.parse? (String.ofList (':' :: trimEnd rest))).isSome then .ok .range
      else .error "EINVALIDTAGNAME" := by
  have htrim : trim (scheme ++ ':' :: rest) = scheme ++ ':' :: trimEnd rest :=
    trim_append_cons h.not_blank (by decide) rest
  have hempty : (scheme ++ ':' :: rest).isEmpty = false := by simp
  have hversion : Version.parseLoose? (String.ofList (scheme ++ ':' :: trimEnd rest)) = none := by
    have hread : PartialText.ofChars? (trim (scheme ++ ':' :: trimEnd rest)) = none := by
      rw [trim_append_cons h.not_blank (by decide)]
      exact PartialText.ofChars?_eq_none (by simp)
    rw [Version.parseLoose?, String.toList_ofList, hread]
    split <;> rfl
  have hsafe : (scheme ++ ':' :: trimEnd rest).all isUriSafe = false :=
    List.all_eq_false.2 ⟨':', by simp, by decide⟩
  have hparse := ParsedRange.parse?_of_scheme h.not_blank (h.not_mem (d := '|') (by decide))
    (trimEnd rest)
  unfold ofRegistry
  dsimp only
  rw [hempty, if_neg Bool.false_ne_true, htrim, hversion, hsafe, ← hparse, Option.isSome_none,
    if_neg Bool.false_ne_true, if_neg Bool.false_ne_true]
  cases hrange : ParsedRange.parse? (String.ofList (scheme ++ ':' :: trimEnd rest)) with
  | none => rfl
  | some range =>
    obtain ⟨-, sent, hsent⟩ := Capabilities.npm_parseRange hrange
    show ((((Capabilities.npm.constraint _).map Specifier.range).map Specifier.kind).mapError _) = _
    rw [hsent]
    rfl

/-- What is told of a specifier that is no alias. -/
theorem told_ofPlain (name : Option String) (spec : List Char) :
    told (ofPlain name spec) =
      if isLocalPath spec || (afterFile? spec).isSome then
        .ok (if isTarball spec then .file else .directory)
      else match Repository.ofChars? spec with
        | some _ => .ok .git
        | none =>
          if isUrl spec then told (ofUrl spec)
          else if spec.contains '/' || isTarball spec then
            .ok (if isTarball spec then .file else .directory)
          else told (ofRegistry name spec) := by
  rw [ofPlain]
  split
  · exact told_ofFile spec
  · cases Repository.ofChars? spec with
    | some r => exact told_ofRepository spec r
    | none =>
      dsimp only
      split
      · rfl
      · split
        · exact told_ofFile spec
        · rfl

theorem told_ofPlain_congr (h : SameScheme scheme other) (name : Option String) (rest : List Char) :
    told (ofPlain name (scheme ++ ':' :: rest)) = told (ofPlain name (other ++ ':' :: rest)) := by
  rw [told_ofPlain, told_ofPlain, h.isLocalPath_congr, h.afterFile?_congr, h.repository_congr,
    h.isUrl_congr, told_ofUrl, told_ofUrl, h.protocolOf_congr, h.contains_slash_congr,
    SameScheme.isTarball_congr scheme other, told_ofRegistry h, told_ofRegistry h.symm]

/-- What is told of an alias is what its target allows. -/
theorem told_ofAlias_congr (target : Except SpecError Resolution) (spec spec' : List Char) :
    told (target >>= ofAlias spec) = told (target >>= ofAlias spec') := by
  cases target with
  | error e => rfl
  | ok target =>
    show told (ofAlias spec target) = told (ofAlias spec' target)
    rw [ofAlias, ofAlias]
    split
    · rfl
    · split <;> rfl

theorem told_resolveChars (name : Option String) (spec : List Char) :
    told (resolveChars name spec) =
      match checkName name, afterAlias? spec with
      | .error e, _ => .error e.code
      | .ok _, none => told (ofPlain name spec)
      | .ok _, some arg => told (resolveArgument (String.ofList arg) >>= ofAlias spec) := by
  rw [resolveChars_eq]
  cases checkName name with
  | error e => rfl
  | ok _ =>
    cases afterAlias? spec with
    | none => exact told_withName (ofPlain name spec) name
    | some arg => exact told_withName (resolveArgument (String.ofList arg) >>= ofAlias spec) name

theorem told_resolveChars_congr (h : SameScheme scheme other) (name : Option String)
    (rest : List Char) :
    told (resolveChars name (scheme ++ ':' :: rest)) =
      told (resolveChars name (other ++ ':' :: rest)) := by
  rw [told_resolveChars, told_resolveChars, h.afterAlias?_congr, told_ofPlain_congr h]
  cases checkName name with
  | error e => rfl
  | ok _ =>
    cases afterAlias? (other ++ ':' :: rest) with
    | none => rfl
    | some arg => exact told_ofAlias_congr (resolveArgument (String.ofList arg)) _ _

end Resolution

namespace Capabilities

variable {raw raw' : String} {scheme scheme' rest : List Char}

theorem npm_told (raw : String) :
    npm.told raw = Resolution.told (resolveChars (some placeholderName) (trim raw.toList)) := by
  have hresolve : npm.resolve placeholderName (trimmed raw) =
      (resolveChars (some placeholderName) (trim raw.toList)).mapError SpecError.refusal := by
    rw [← toList_trimmed]
    rfl
  rw [told, classify_eq, plan, hresolve]
  cases resolveChars (some placeholderName) (trim raw.toList) <;> rfl

/-- **Letter case in a scheme is ignored.** Whatever stands behind the first colon, if only letters
    and plus signs stand before it, then any capitals there may be small letters and the other way
    round: both texts are classified, as specifiers of one kind, or neither is, and for errors of one
    code. -/
theorem npm_told_of_sameScheme (hraw : trim raw.toList = scheme ++ ':' :: rest)
    (hraw' : trim raw'.toList = scheme' ++ ':' :: rest)
    (hchars : ∀ c ∈ scheme, c.isAlpha = true ∨ c = '+')
    (hcase : lowerAscii scheme = lowerAscii scheme') : npm.told raw = npm.told raw' := by
  rw [npm_told, npm_told, hraw, hraw']
  exact Resolution.told_resolveChars_congr ⟨hchars, hcase⟩ _ rest

/-- An alias, a URL that nothing can be fetched from, and a range behind a word that is not read. -/
theorem capitals_are_ignored :
    npm.told " NPM:Left@^1" = npm.told "nPm:Left@^1 " ∧
      npm.told "SFTP://Host" = npm.told "sftp://Host" ∧
      npm.told "sftp://Host" = .error "EUNSUPPORTEDPROTOCOL" ∧
      npm.told "a+X:y || ~1.2" = npm.told "A+x:y || ~1.2" ∧
      npm.told "A+x:y || ~1.2" = .ok .range := by
  have hprotocol : npm.told "sftp://Host" = .error "EUNSUPPORTEDPROTOCOL" := by
    rw [npm_told, Resolution.told_resolveChars]
    decide +kernel
  have hrange : npm.told "A+x:y || ~1.2" = .ok .range := by
    rw [npm_told, Resolution.told_resolveChars]
    decide +kernel
  have hsame {raw raw' : String} (scheme scheme' rest : List Char)
      (h : trim raw.toList = scheme ++ ':' :: rest ∧ trim raw'.toList = scheme' ++ ':' :: rest ∧
        (scheme.all fun c => c.isAlpha || c == '+') = true ∧
          lowerAscii scheme = lowerAscii scheme') : npm.told raw = npm.told raw' := by
    obtain ⟨hraw, hraw', hchars, hcase⟩ := h
    simp only [List.all_eq_true, Bool.or_eq_true, beq_iff_eq] at hchars
    exact npm_told_of_sameScheme hraw hraw' hchars hcase
  exact ⟨hsame "NPM".toList "nPm".toList "Left@^1".toList (by decide),
    hsame "SFTP".toList "sftp".toList "//Host".toList (by decide), hprotocol,
    hsame "a+X".toList "A+x".toList "y || ~1.2".toList (by decide), hrange⟩

end Capabilities

end DepSpec
