import DepSpec.Proofs.Range.LooseVersions
import DepSpec.Proofs.Range.Vocabulary
import DepSpec.Specifier.Classify

set_option autoImplicit false

/-! # Classification by the rules of npm

With the capabilities of npm no text brings a service down: classification gives a specifier or
refuses the text. What an answer of the resolver looks like is said by `Resolution.IsAnswer`, which
is proved along the tests of the resolver and by induction for aliases. An answer has the fields
that its kind needs, and its range text can be read and sent. -/

namespace DepSpec

open Text

/-! ## Answers of the resolver -/

/-- An answer that a registry is asked with. What is taken for a version is a loose one, and what is
    taken for a range can be read. -/
inductive Resolution.IsRegistryAnswer : Resolution → Prop
  | tag {r : Resolution} {text : String} (hkind : r.kind = "tag") (hfetch : r.fetch = some text) :
    IsRegistryAnswer r
  | version {r : Resolution} {text : String} {v : Version} (hkind : r.kind = "version")
    (hfetch : r.fetch = some text) (hversion : Version.parseLoose? text = some v) :
    IsRegistryAnswer r
  | range {r : Resolution} {text : String} {range : ParsedRange} (hkind : r.kind = "range")
    (hfetch : r.fetch = some text) (hparse : ParsedRange.parse? text = some range) :
    IsRegistryAnswer r

/-- An answer of the resolver. Only aliases have a target. -/
inductive Resolution.IsAnswer : Resolution → Prop
  | place {r : Resolution} (hkind : r.kind = "file" ∨ r.kind = "directory" ∨ r.kind = "remote")
    (htarget : r.target = none) : IsAnswer r
  | git {r : Resolution} {url : String} (hkind : r.kind = "git") (hsave : r.save = some url)
    (htarget : r.target = none) : IsAnswer r
  | registry {r : Resolution} (h : r.IsRegistryAnswer) (htarget : r.target = none) : IsAnswer r
  | aliased {r target : Resolution} (hkind : r.kind = "alias") (htarget : r.target = some target)
    (h : target.IsRegistryAnswer) : IsAnswer r

/-- The resolver gives what `P` says, or refuses the text. It never complains about a range. -/
def Settles {α : Type} (P : α → Prop) : Except SpecError α → Prop
  | .ok a => P a
  | .error e => ∀ text, e ≠ .range text

theorem Settles.bind {α β : Type} {P : α → Prop} {Q : β → Prop} {x : Except SpecError α}
    {f : α → Except SpecError β} (hx : Settles P x) (hf : ∀ a, P a → Settles Q (f a)) :
    Settles Q (x >>= f) := by
  cases x with
  | ok a => exact hf a hx
  | error e => exact hx

namespace Resolution

/-! ## Along the tests -/

theorem settles_ofRegistry (name : Option String) (spec : List Char) :
    Settles IsAnswer (ofRegistry name spec) := by
  unfold ofRegistry
  dsimp only
  -- The three tests are about one text; which one it is does not matter.
  generalize (if spec.isEmpty then defaultTag.toList else trim spec) = fetch
  split
  · next hversion =>
    obtain ⟨v, hv⟩ := Option.isSome_iff_exists.1 hversion
    exact .registry (.version rfl rfl hv) rfl
  · split
    · next hrange =>
      obtain ⟨range, hparse⟩ := Option.isSome_iff_exists.1 hrange
      exact .registry (.range rfl rfl hparse) rfl
    · split
      · exact .registry (.tag rfl rfl) rfl
      · exact nofun

theorem isAnswer_ofFile (spec : List Char) : (ofFile spec).IsAnswer := by
  refine .place ?_ rfl
  unfold ofFile
  dsimp only
  split
  · exact Or.inl rfl
  · exact Or.inr (Or.inl rfl)

theorem settles_ofUrl (spec : List Char) : Settles IsAnswer (ofUrl spec) := by
  unfold ofUrl
  dsimp only
  split
  · exact .git rfl rfl rfl
  · split
    · exact .place (Or.inr (Or.inr rfl)) rfl
    · exact nofun

theorem settles_ofPlain (name : Option String) (spec : List Char) :
    Settles IsAnswer (ofPlain name spec) := by
  unfold ofPlain
  split
  · exact isAnswer_ofFile spec
  · split
    · exact .git rfl rfl rfl
    · split
      · exact settles_ofUrl spec
      · split
        · exact isAnswer_ofFile spec
        · exact settles_ofRegistry name spec

theorem settles_checkName (name : Option String) : Settles (fun _ => True) (checkName name) := by
  unfold checkName
  split
  · trivial
  · split
    · trivial
    · exact nofun

/-- An alias points at a registry. -/
theorem settles_ofAlias (spec : List Char) {target : Resolution} (h : target.IsAnswer) :
    Settles IsAnswer (ofAlias spec target) := by
  unfold ofAlias
  dsimp only
  split
  · exact nofun
  · next hnested =>
    split
    · next hregistry =>
      refine .aliased rfl rfl ?_
      cases h with
      | place hkind =>
        rcases hkind with hkind | hkind | hkind <;> rw [isRegistry, hkind] at hregistry <;>
          exact absurd hregistry (by decide)
      | git hkind =>
        rw [isRegistry, hkind] at hregistry
        exact absurd hregistry (by decide)
      | registry h => exact h
      | aliased hkind => exact absurd hkind hnested
    · exact nofun

theorem IsAnswer.withName {r : Resolution} (h : r.IsAnswer) (name : Option String) :
    IsAnswer { r with name := name } := by
  cases h with
  | place hkind htarget => exact .place hkind htarget
  | git hkind hsave htarget => exact .git hkind hsave htarget
  | registry h htarget =>
    refine .registry ?_ htarget
    cases h with
    | tag hkind hfetch => exact .tag hkind hfetch
    | version hkind hfetch hversion => exact .version hkind hfetch hversion
    | range hkind hfetch hparse => exact .range hkind hfetch hparse
  | aliased hkind htarget h => exact .aliased hkind htarget h

end Resolution

/-- **Every text is answered or refused**, aliases by induction on their targets. -/
theorem settles_resolveChars (name : Option String) (spec : List Char) :
    Settles Resolution.IsAnswer (resolveChars name spec) := by
  induction name, spec using resolveChars.induct with
  | case1 name spec hbare hnamed =>
    have hname {x : Except SpecError Resolution} (hx : Settles Resolution.IsAnswer x) :
        Settles Resolution.IsAnswer (x >>= fun r => pure { r with name := name }) :=
      hx.bind fun r hr => hr.withName name
    have halias {x : Except SpecError Resolution} (hx : Settles Resolution.IsAnswer x) :
        Settles Resolution.IsAnswer (x >>= fun target => Resolution.ofAlias spec target >>= fun r =>
          pure { r with name := name }) :=
      hx.bind fun target htarget => hname (Resolution.settles_ofAlias spec htarget)
    rw [resolveChars]
    -- The target of an alias is shorter, and its answer is one by induction.
    refine (Resolution.settles_checkName name).bind fun _ _ => ?_
    split
    · exact hname (Resolution.settles_ofPlain name spec)
    · next arg harg =>
      split
      · exact halias (Resolution.settles_ofPlain none _)
      · next inner hinner => exact halias (hbare arg harg inner hinner)
      · next inner name' hinner => exact halias (hnamed arg harg _ _ hinner)

/-! ## Versions and ranges -/

namespace Resolution

theorem IsRegistryAnswer.exists_range {r : Resolution} (h : r.IsRegistryAnswer)
    (hkind : r.kind = "version" ∨ r.kind = "range") :
    ∃ text range, r.fetch = some text ∧ ParsedRange.parse? text = some range := by
  cases h with
  | tag htag => simp [htag] at hkind
  | version _ hfetch hversion =>
    exact ⟨_, _, hfetch, ParsedRange.parse?_of_parseLoose? hversion⟩
  | range _ hfetch hparse => exact ⟨_, _, hfetch, hparse⟩

/-- Versions and ranges are registry answers, whether they are targets or stand by themselves. -/
theorem IsAnswer.isRegistryAnswer {r q : Resolution} (h : r.IsAnswer)
    (hq : q = r ∨ r.target = some q) (hkind : q.kind = "version" ∨ q.kind = "range") :
    q.IsRegistryAnswer := by
  have hnone (htarget : r.target = none) : q = r := by
    rcases hq with rfl | hq
    · rfl
    · rw [htarget] at hq
      cases hq
  cases h with
  | place hplace htarget =>
    rw [hnone htarget] at hkind
    rcases hplace with hplace | hplace | hplace <;> simp [hplace] at hkind
  | git hgit _ htarget =>
    rw [hnone htarget] at hkind
    simp [hgit] at hkind
  | registry h htarget => exact hnone htarget ▸ h
  | aliased halias htarget h =>
    rcases hq with rfl | hq
    · simp [halias] at hkind
    · rw [htarget] at hq
      cases hq
      exact h

end Resolution

/-! ## What an answer leaves to do -/

/-- The range text of a plan can be read. -/
def Plan.IsReadable (plan : Plan) : Prop :=
  ∀ text, plan.rangeText? = some text → ∃ range, ParsedRange.parse? text = some range

theorem Plan.isReadable_of_parse? {plan : Plan} {text : String} {range : ParsedRange}
    (htext : plan.rangeText? = some text) (hparse : ParsedRange.parse? text = some range) :
    plan.IsReadable := by
  intro text' htext'
  rw [htext] at htext'
  cases htext'
  exact ⟨range, hparse⟩

namespace Resolution

theorem IsRegistryAnswer.exists_ofTarget {target : Resolution} (h : target.IsRegistryAnswer) :
    ∃ plan, Plan.ofTarget target = .ok plan ∧ plan.IsReadable := by
  cases h with
  | tag hkind hfetch =>
    rw [Plan.ofTarget, hkind, hfetch]
    cases target.name with
    | none => exact ⟨_, rfl, nofun⟩
    | some name => exact ⟨_, rfl, nofun⟩
  | version hkind hfetch hversion =>
    have hparse := ParsedRange.parse?_of_parseLoose? hversion
    rw [Plan.ofTarget, hkind, hfetch]
    cases target.name with
    | none => exact ⟨_, rfl, Plan.isReadable_of_parse? rfl hparse⟩
    | some name => exact ⟨_, rfl, Plan.isReadable_of_parse? rfl hparse⟩
  | range hkind hfetch hparse =>
    rw [Plan.ofTarget, hkind, hfetch]
    cases target.name with
    | none => exact ⟨_, rfl, Plan.isReadable_of_parse? rfl hparse⟩
    | some name => exact ⟨_, rfl, Plan.isReadable_of_parse? rfl hparse⟩

/-- An answer of the resolver is understood, with every field that its kind needs. -/
theorem IsAnswer.exists_plan {r : Resolution} (h : r.IsAnswer) :
    ∃ plan, Plan.ofResolution r = .ok plan ∧ plan.IsReadable := by
  cases h with
  | place hkind =>
    rcases hkind with hkind | hkind | hkind <;> rw [Plan.ofResolution, hkind] <;>
      exact ⟨_, rfl, nofun⟩
  | git hkind hsave =>
    rw [Plan.ofResolution, hkind, hsave]
    exact ⟨_, rfl, nofun⟩
  | registry h =>
    cases h with
    | tag hkind hfetch =>
      rw [Plan.ofResolution, hkind, hfetch]
      exact ⟨_, rfl, nofun⟩
    | version hkind hfetch hversion =>
      rw [Plan.ofResolution, hkind, hfetch]
      exact ⟨_, rfl, Plan.isReadable_of_parse? rfl (ParsedRange.parse?_of_parseLoose? hversion)⟩
    | range hkind hfetch hparse =>
      rw [Plan.ofResolution, hkind, hfetch]
      exact ⟨_, rfl, Plan.isReadable_of_parse? rfl hparse⟩
  | aliased hkind htarget h =>
    rw [Plan.ofResolution, hkind, htarget]
    exact h.exists_ofTarget

end Resolution

/-! ## Classification -/

/-- The codes with which a resolver refuses a text. -/
def resolverCodes : List String :=
  ["EINVALIDTAGNAME", "EUNSUPPORTEDPROTOCOL", "EINVALIDALIAS", "EINVALIDPACKAGENAME"]

theorem SpecError.code_mem_resolverCodes {e : SpecError} (h : ∀ text, e ≠ .range text) :
    e.refusal.code ∈ resolverCodes := by
  cases e with
  | range text => exact absurd rfl (h text)
  | tagName | protocol | «alias» | packageName => simp [refusal, code, resolverCodes]

namespace Capabilities

/-- A range text that can be read is parsed and sent. -/
theorem npm_parseRange {text : String} {range : ParsedRange}
    (h : ParsedRange.parse? text = some range) :
    npm.parseRange text = .ok range ∧ ∃ sent, npm.constraint text = .ok sent := by
  have hparse : npm.parseRange text = .ok range := by
    simp only [npm, readRange, h]
    rfl
  obtain ⟨sent, hsent⟩ := ParsedRange.exists_constraint_of_parse? h
  refine ⟨hparse, sent, ?_⟩
  rw [constraint, hparse]
  show range.constraint.mapError _ = _
  rw [hsent]
  rfl

theorem npm_resolve (name spec : String) :
    (∃ r, npm.resolve name spec = .ok r ∧ r.IsAnswer) ∨
      ∃ refusal, npm.resolve name spec = .error refusal ∧ refusal.code ∈ resolverCodes := by
  have hsettles := settles_resolveChars (some name) spec.toList
  have hnpm : npm.resolve name spec =
      (resolveChars (some name) spec.toList).mapError SpecError.refusal := rfl
  rw [hnpm]
  cases hr : resolveChars (some name) spec.toList with
  | ok r =>
    rw [hr] at hsettles
    exact Or.inl ⟨r, rfl, hsettles⟩
  | error e =>
    rw [hr] at hsettles
    exact Or.inr ⟨e.refusal, rfl, SpecError.code_mem_resolverCodes hsettles⟩

theorem npm_plan (raw : String) :
    (∃ plan, npm.plan raw = .ok plan ∧ plan.IsReadable) ∨
      ∃ refusal, npm.plan raw = .error (.invalid refusal) ∧ refusal.code ∈ resolverCodes := by
  unfold plan
  rcases npm_resolve placeholderName (trimmed raw) with ⟨r, hr, hanswer⟩ | ⟨refusal, hr, hcode⟩
  · left
    rw [hr]
    exact hanswer.exists_plan
  · right
    rw [hr]
    exact ⟨refusal, rfl, hcode⟩

/-- **Every text is classified or refused by the resolver.** No text makes classification complain
    about an answer of the resolver or an operator of the range reader, and none is refused as a
    range: what the resolver takes for a version or a range, by itself or behind an alias, is a
    range that can be parsed and sent. -/
theorem npm_classifies_or_refuses (raw : String) :
    ((∃ spec, npm.classify raw = .ok spec) ∨
        ∃ refusal, npm.classify raw = .error (.invalid refusal) ∧ refusal.code ∈ resolverCodes) ∧
      ∀ name spec r, npm.resolve name spec = .ok r → ∀ q, q = r ∨ r.target = some q →
        q.kind = "version" ∨ q.kind = "range" →
          ∃ text range sent, q.fetch = some text ∧ npm.parseRange text = .ok range ∧
            npm.constraint text = .ok sent := by
  constructor
  · unfold classify
    rcases npm_plan raw with ⟨plan, hplan, hreadable⟩ | ⟨refusal, hplan, hcode⟩
    · left
      rw [hplan]
      cases plan with
      | done spec => exact ⟨spec, rfl⟩
      | range text =>
        obtain ⟨range, hparse⟩ := hreadable text rfl
        obtain ⟨-, sent, hsent⟩ := npm_parseRange hparse
        refine ⟨.range sent, ?_⟩
        show (npm.constraint text).map _ = _
        rw [hsent]
        rfl
      | aliasRange name text =>
        obtain ⟨range, hparse⟩ := hreadable text rfl
        obtain ⟨-, sent, hsent⟩ := npm_parseRange hparse
        refine ⟨.alias name none (.range sent), ?_⟩
        show (npm.constraint text).map _ = _
        rw [hsent]
        rfl
    · right
      rw [hplan]
      exact ⟨refusal, rfl, hcode⟩
  · intro name spec r hr q hq hkind
    have hanswer : r.IsAnswer := by
      rcases npm_resolve name spec with ⟨r', hr', hanswer⟩ | ⟨refusal, hr', -⟩
      · rw [hr] at hr'
        cases hr'
        exact hanswer
      · rw [hr] at hr'
        cases hr'
    obtain ⟨text, range, hfetch, hparse⟩ := (hanswer.isRegistryAnswer hq hkind).exists_range hkind
    obtain ⟨hread, sent, hsent⟩ := npm_parseRange hparse
    exact ⟨text, range, sent, hfetch, hread, hsent⟩

end Capabilities

end DepSpec
