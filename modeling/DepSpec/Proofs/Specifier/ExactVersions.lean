import DepSpec.Proofs.Specifier.Attribution
import DepSpec.Proofs.Specifier.NpmSafety

set_option autoImplicit false

/-! # Versions are exact ranges

A version reaches classification twice: the resolver recognises it as a whole, and the range parser
reads it again, as a range that happens to name one version. The two readings go through different
grammars. They agree: what the resolver takes for a version is the range of exactly that version,
by itself or behind an alias.

The proof follows a text from the resolver's answer to the plan that answer leaves, and from there
to the range that is sent. `ParsedRange.parse?_of_parseLoose?` is where the grammars meet. -/

namespace DepSpec

open Text

/-! ## Answers that are versions -/

namespace Resolution

theorem IsRegistryAnswer.exists_version {r : Resolution} (h : r.IsRegistryAnswer)
    (hkind : r.kind = "version") :
    ∃ text v, r.fetch = some text ∧ Version.parseLoose? text = some v := by
  cases h with
  | tag htag => simp [htag] at hkind
  | version _ hfetch hversion => exact ⟨_, _, hfetch, hversion⟩
  | range hrange => simp [hrange] at hkind

/-- Only an alias has a target. -/
theorem IsAnswer.kind_of_target {r target : Resolution} (h : r.IsAnswer)
    (htarget : r.target = some target) : r.kind = "alias" := by
  cases h with
  | aliased hkind => exact hkind
  | place _ hnone | git _ _ hnone | registry _ hnone =>
    rw [hnone] at htarget
    cases htarget

end Resolution

/-! ## What a version leaves to do -/

namespace Plan

theorem ofResolution_version {r : Resolution} (hkind : r.kind = "version") {text : String}
    (hfetch : r.fetch = some text) : ofResolution r = .ok (.range text) := by
  rw [ofResolution, hkind, hfetch]
  rfl

theorem ofTarget_version {target : Resolution} (hkind : target.kind = "version") {text : String}
    (hfetch : target.fetch = some text) :
    ofTarget target = .ok (target.name.elim (.range text) fun name => .aliasRange name text) := by
  rw [ofTarget, hkind, hfetch]
  cases target.name <;> rfl

end Plan

/-! ## Classification -/

/-- The range of a single version. -/
def Constraint.exactly (v : VersionRecord) : Constraint := [[.compare .eq v]]

namespace Capabilities

theorem npm_isAnswer_of_resolve {name spec : String} {r : Resolution}
    (h : npm.resolve name spec = .ok r) : r.IsAnswer := by
  rcases npm_resolve name spec with ⟨r', hr', hanswer⟩ | ⟨refusal, hrefusal, -⟩
  · rw [h] at hr'
    cases hr'
    exact hanswer
  · rw [h] at hrefusal
    cases hrefusal

theorem npm_parseRange_of_parseLoose? {text : String} {v : Version}
    (h : Version.parseLoose? text = some v) :
    npm.parseRange text = .ok [[⟨"", .version v⟩]] :=
  (npm_parseRange (ParsedRange.parse?_of_parseLoose? h)).1

theorem npm_constraint_of_parseLoose? {text : String} {v : Version}
    (h : Version.parseLoose? text = some v) : npm.constraint text = .ok (.exactly v.record) := by
  rw [constraint, npm_parseRange_of_parseLoose? h]
  rfl

/-- Once the plan is a version's text, for a package or not, the answer is its exact range. -/
theorem npm_classify_of_plan {raw text : String} {v : Version} (name? : Option String)
    (hplan : npm.plan raw =
      .ok (name?.elim (.range text) fun name => .aliasRange name text))
    (hv : Version.parseLoose? text = some v) :
    npm.classify raw = .ok (name?.elim (.range (.exactly v.record)) fun name =>
      .alias name none (.range (.exactly v.record))) := by
  rw [classify, hplan]
  cases name? with
  | none =>
    show (npm.constraint text).map _ = _
    rw [npm_constraint_of_parseLoose? hv]
    rfl
  | some name =>
    show (npm.constraint text).map _ = _
    rw [npm_constraint_of_parseLoose? hv]
    rfl

/-- **The two version grammars agree.** A text that is read as a version is the range of that
    version alone, so what the resolver calls a version is classified as that range; an alias for
    a version is an alias for that range. -/
theorem versions_are_exact_ranges :
    (∀ text v, Version.parseLoose? text = some v →
      npm.parseRange text = .ok [[⟨"", .version v⟩]]) ∧
    ∀ raw r, npm.resolve placeholderName (trimmed raw) = .ok r →
      (r.kind = "version" → ∃ text v, r.fetch = some text ∧ Version.parseLoose? text = some v ∧
        npm.classify raw = .ok (.range (.exactly v.record))) ∧
      ∀ target, r.target = some target → target.kind = "version" →
        ∃ text v, target.fetch = some text ∧ Version.parseLoose? text = some v ∧
          npm.classify raw = .ok (target.name.elim (.range (.exactly v.record)) fun name =>
            .alias name none (.range (.exactly v.record))) := by
  refine ⟨fun text v => npm_parseRange_of_parseLoose?, ?_⟩
  intro raw r hr
  have hanswer := npm_isAnswer_of_resolve hr
  have hplan := plan_of_resolve hr
  constructor
  · intro hkind
    obtain ⟨text, v, hfetch, hv⟩ :=
      (hanswer.isRegistryAnswer (Or.inl rfl) (Or.inl hkind)).exists_version hkind
    rw [Plan.ofResolution_version hkind hfetch] at hplan
    exact ⟨text, v, hfetch, hv, npm_classify_of_plan none hplan hv⟩
  · intro target htarget hkind
    obtain ⟨text, v, hfetch, hv⟩ :=
      (hanswer.isRegistryAnswer (Or.inr htarget) (Or.inl hkind)).exists_version hkind
    -- the answer itself is an alias, so the plan is its target's
    rw [Plan.ofResolution_alias (hanswer.kind_of_target htarget) htarget,
      Plan.ofTarget_version hkind hfetch] at hplan
    exact ⟨text, v, hfetch, hv, npm_classify_of_plan target.name hplan hv⟩

/-- A prefix, a leading zero and a build: the text is a version, and its range is exactly it. -/
theorem padded_version_is_exact_range :
    ∃ v, Version.parseLoose? "=  v1.2.3-01+b" = some v ∧
      npm.parseRange "=  v1.2.3-01+b" = .ok [[⟨"", .version v⟩]] ∧
      npm.classify " =  v1.2.3-01+b\t" = .ok (.range (.exactly v.record)) := by
  have hanswer : (npm.resolve placeholderName (trimmed " =  v1.2.3-01+b\t")).toOption.map
      (fun r => (r.kind, r.fetch)) = some ("version", some "=  v1.2.3-01+b") := by
    decide +kernel
  cases hr : npm.resolve placeholderName (trimmed " =  v1.2.3-01+b\t") with
  | error refusal =>
    rw [hr] at hanswer
    cases hanswer
  | ok r =>
    rw [hr] at hanswer
    obtain ⟨hkind, hfetch⟩ := Prod.mk.inj (Option.some.inj hanswer)
    obtain ⟨text, v, htext, hv, hclassify⟩ := (versions_are_exact_ranges.2 _ r hr).1 hkind
    rw [hfetch] at htext
    cases htext
    exact ⟨v, hv, versions_are_exact_ranges.1 _ v hv, hclassify⟩

end Capabilities

end DepSpec
