import DepSpec.Proofs.Specifier.WellFormed

set_option autoImplicit false

/-! # Aliases

`npm:` in front of a package name and a specifier makes an alias for that package, and what becomes
of it depends on the specifier alone. The resolver takes the text apart at the `@` behind the name
and resolves the specifier as if it stood by itself (`npm_resolve_aliasText`). A tag, a version or a
range is then the target of the alias, and classification does to the target what it does to the
specifier by itself (`Plan.ofTarget_withName`). Anything else is refused. -/

namespace DepSpec

open Text Resolution

/-- An alias as it is written, with the scheme in some letter case. -/
def aliasText (scheme name spec : String) : String := scheme ++ ":" ++ name ++ "@" ++ spec

/-- The parts that an alias can be put together from. -/
structure AliasParts (scheme name spec : String) : Prop where
  scheme_eq : lowerAscii scheme.toList = "npm".toList
  name_isValid : PackageName.isValid name.toList = true
  /-- A name that ends like an archive can be read as a path. -/
  name_not_isTarball : isTarball name.toList = false
  spec_trim : trim spec.toList = spec.toList
  /-- Name and specifier together are no address of a repository. -/
  not_isSecureCopy : Argument.isSecureCopy (name.toList ++ '@' :: spec.toList) = false

/-! ## What an alias leaves to do -/

/-- As the target of an alias, a registry answer leaves to do what it leaves by itself, for the
    package of the alias. -/
theorem Plan.ofTarget_withName {name name' : Option String} {spec : List Char} {q : Resolution}
    (hq : ofRegistry name spec = .ok q) (package : String) :
    (∃ tag, ofResolution (q.withName name') = .ok (.done (.tag tag)) ∧
        ofTarget (q.withName package) = .ok (.done (.alias package none (.tag tag)))) ∨
      ∃ text range, ParsedRange.parse? text = some range ∧
        ofResolution (q.withName name') = .ok (.range text) ∧
        ofTarget (q.withName package) = .ok (.aliasRange package text) := by
  obtain ⟨kind, text, rfl, ⟨rfl, v, hv⟩ | ⟨rfl, range, hrange⟩ | ⟨rfl, -⟩⟩ := ofRegistry_cases hq
  · exact Or.inr ⟨text, _, ParsedRange.parse?_of_parseLoose? hv, rfl, rfl⟩
  · exact Or.inr ⟨text, range, hrange, rfl, rfl⟩
  · exact Or.inl ⟨text, rfl, rfl⟩

namespace Capabilities

theorem classify_of_refused {caps : Capabilities} {raw : String} {refusal : Refusal}
    (h : caps.resolve placeholderName (trimmed raw) = .error refusal) :
    caps.classify raw = .error (.invalid refusal) := by
  rw [classify, plan, h]
  rfl

theorem trimmed_eq_self {raw : String} (h : trim raw.toList = raw.toList) : trimmed raw = raw := by
  rw [trimmed, h, String.ofList_toList]

/-! ## Reading an alias -/

variable {scheme name spec : String}

theorem toList_aliasText :
    (aliasText scheme name spec).toList =
      scheme.toList ++ ':' :: (name.toList ++ '@' :: spec.toList) := by
  simp [aliasText]

/-- No blank comes before the scheme, and none after the specifier. -/
theorem trim_aliasText (h : AliasParts scheme name spec) :
    trim (aliasText scheme name spec).toList = (aliasText scheme name spec).toList := by
  have hscheme := h.scheme_eq
  rw [toList_aliasText]
  cases hchars : scheme.toList with
  | nil =>
    rw [hchars] at hscheme
    cases hscheme
  | cons c cs =>
    rw [hchars] at hscheme
    have hletter : (c.toLower == 'n') = true := beq_iff_eq.2 (List.cons.inj hscheme).1
    have hblank : isBlank c = false :=
      isBlank_eq_false (p := fun c => c.toLower == 'n') (by decide) hletter
    have hend : trimEnd ('@' :: spec.toList) = '@' :: spec.toList := by
      by_cases hempty : spec.toList = []
      · rw [hempty]
        rfl
      · exact trimEnd_append ['@'] (trimEnd_eq_self h.spec_trim) hempty
    rw [List.cons_append, trim_cons hblank, ← List.cons_append, ← List.cons_append,
      ← List.append_assoc]
    exact trimEnd_append _ hend (List.cons_ne_nil _ _)

theorem afterAlias?_aliasText (h : AliasParts scheme name spec) :
    afterAlias? (aliasText scheme name spec).toList =
      some (name.toList ++ '@' :: spec.toList) := by
  rw [afterAlias?, afterFolded?_eq_some_iff]
  refine ⟨scheme.toList ++ [':'], ?_, ?_⟩
  · rw [toList_aliasText, List.append_assoc, List.singleton_append]
  · rw [List.map_append, map_foldCase_of_lowerAscii h.scheme_eq (by decide +kernel)]
    rfl

/-- **An alias is resolved as its specifier is for its package.** -/
theorem npm_resolve_aliasText (h : AliasParts scheme name spec) :
    npm.resolve placeholderName (trimmed (aliasText scheme name spec)) =
      (resolveChars (some name) spec.toList >>= fun target =>
        ofAlias (aliasText scheme name spec).toList target >>= fun r =>
          .ok (r.withName placeholderName)).mapError SpecError.refusal := by
  have hargument : resolveArgument (String.ofList (name.toList ++ '@' :: spec.toList)) =
      resolveChars (some name) spec.toList := by
    rw [resolveArgument_ofList,
      Argument.ofChars_append h.name_isValid h.name_not_isTarball h.not_isSecureCopy]
    dsimp only
    rw [String.ofList_toList]
  rw [trimmed_eq_self (trim_aliasText h), ← hargument]
  exact congrArg (Except.mapError SpecError.refusal)
    (resolveChars_of_alias rfl (afterAlias?_aliasText h))

/-- What the specifier is resolved to becomes the target, if it can be one. -/
theorem npm_resolve_aliasText_of_ok (h : AliasParts scheme name spec) {target : Resolution}
    (htarget : resolveChars (some name) spec.toList = .ok target) :
    npm.resolve placeholderName (trimmed (aliasText scheme name spec)) =
      (ofAlias (aliasText scheme name spec).toList target >>= fun r =>
        .ok (r.withName placeholderName)).mapError SpecError.refusal := by
  rw [npm_resolve_aliasText h, htarget]
  rfl

/-! ## Classification -/

theorem npm_plan_aliasText (h : AliasParts scheme name spec) {target : Resolution}
    (htarget : resolveChars (some name) spec.toList = .ok target)
    (hkind : target.kind ∈ ["tag", "version", "range"]) :
    npm.plan (aliasText scheme name spec) = Plan.ofTarget target := by
  have hresolve := npm_resolve_aliasText_of_ok h htarget
  rw [ofAlias_of_mem hkind] at hresolve
  rw [plan_of_resolve hresolve]
  rfl

theorem npm_classify_aliasText_of_mem (h : AliasParts scheme name spec) {r : Resolution}
    (hr : npm.resolve placeholderName (trimmed spec) = .ok r)
    (htarget : resolveChars (some name) spec.toList = .ok (r.withName name))
    (hkind : r.kind ∈ ["tag", "version", "range"]) :
    ∃ target : AliasTarget, npm.classify spec = .ok target.specifier ∧
      npm.classify (aliasText scheme name spec) = .ok (.alias name none target) := by
  have hself := plan_of_resolve hr
  have halias := npm_plan_aliasText h htarget hkind
  rw [npm_resolve_eq_ok, toList_trimmed] at hr
  obtain ⟨q, hq, rfl⟩ := ofRegistry_of_resolveChars hr hkind
  rw [withName_withName] at halias
  rcases Plan.ofTarget_withName hq name with
    ⟨tag, hplan, htargetPlan⟩ | ⟨text, range, hrange, hplan, htargetPlan⟩
  · refine ⟨.tag tag, ?_, ?_⟩
    · rw [classify, hself, hplan]
      rfl
    · rw [classify, halias, htargetPlan]
      rfl
  · obtain ⟨-, sent, hsent⟩ := npm_parseRange hrange
    refine ⟨.range sent, ?_, ?_⟩
    · rw [classify, hself, hplan]
      show (npm.constraint text).map _ = _
      rw [hsent]
      rfl
    · rw [classify, halias, htargetPlan]
      show (npm.constraint text).map _ = _
      rw [hsent]
      rfl

theorem npm_classify_aliasText_of_not_mem (h : AliasParts scheme name spec) {target : Resolution}
    (htarget : resolveChars (some name) spec.toList = .ok target)
    (hkind : target.kind ∉ ["tag", "version", "range"]) :
    ∃ refusal, npm.classify (aliasText scheme name spec) = .error (.invalid refusal) ∧
      refusal.code = "EINVALIDALIAS" := by
  obtain ⟨fault, hfault⟩ := ofAlias_of_not_mem (aliasText scheme name spec).toList hkind
  have hresolve := npm_resolve_aliasText_of_ok h htarget
  rw [hfault] at hresolve
  exact ⟨_, classify_of_refused hresolve, rfl⟩

theorem npm_classify_aliasText_of_error (h : AliasParts scheme name spec) {e : SpecError}
    (htarget : resolveChars (some name) spec.toList = .error e) :
    npm.classify (aliasText scheme name spec) = .error (.invalid e.refusal) := by
  have hresolve := npm_resolve_aliasText h
  rw [htarget] at hresolve
  exact classify_of_refused hresolve

/-- **An alias is classified as its specifier is.** A tag, a version or a range becomes the target
    of the alias: the tag or range that the specifier is by itself. Any other specifier is refused
    as a target, an alias too, and what is refused by itself is refused with the same code. -/
theorem npm_classify_aliasText (h : AliasParts scheme name spec) :
    (∀ r, npm.resolve placeholderName spec = .ok r → r.kind ∈ ["tag", "version", "range"] →
        ∃ target : AliasTarget, npm.classify spec = .ok target.specifier ∧
          npm.classify (aliasText scheme name spec) = .ok (.alias name none target)) ∧
      (∀ r, npm.resolve placeholderName spec = .ok r → r.kind ∉ ["tag", "version", "range"] →
        ∃ refusal, npm.classify (aliasText scheme name spec) = .error (.invalid refusal) ∧
          refusal.code = "EINVALIDALIAS") ∧
      ∀ refusal, npm.resolve placeholderName spec = .error refusal →
        ∃ refusal', npm.classify (aliasText scheme name spec) = .error (.invalid refusal') ∧
          refusal'.code = refusal.code := by
  have hplaceholder : checkName (some placeholderName) = .ok () := rfl
  rcases resolveChars_congr hplaceholder (checkName_eq_ok_iff.2 h.name_isValid) spec.toList with
    ⟨r, hr, htarget⟩ | ⟨e, e', he, he', hcode⟩
  · have hresolve : npm.resolve placeholderName spec = .ok r := npm_resolve_eq_ok.2 hr
    refine ⟨?_, ?_, ?_⟩
    · intro r' hr' hkind
      rw [hresolve] at hr'
      cases hr'
      rw [← trimmed_eq_self h.spec_trim] at hresolve
      exact npm_classify_aliasText_of_mem h hresolve htarget hkind
    · intro r' hr' hkind
      rw [hresolve] at hr'
      cases hr'
      exact npm_classify_aliasText_of_not_mem h htarget hkind
    · intro refusal hrefusal
      rw [hresolve] at hrefusal
      cases hrefusal
  · have hresolve : npm.resolve placeholderName spec = .error e.refusal := by
      show (resolveChars _ _).mapError _ = _
      rw [he]
      rfl
    refine ⟨?_, ?_, ?_⟩
    · intro r hr
      rw [hresolve] at hr
      cases hr
    · intro r hr
      rw [hresolve] at hr
      cases hr
    · intro refusal hrefusal
      rw [hresolve] at hrefusal
      cases hrefusal
      exact ⟨_, npm_classify_aliasText_of_error h he', hcode.symm⟩

/-- Scoped names with an archive's ending inside: for a range, for a directory, and for what is no
    tag. -/
theorem npm_classify_scoped_aliases :
    (∃ target : AliasTarget, npm.classify "1 - 2.x" = .ok target.specifier ∧
        npm.classify "nPm:@Foo/b.tgz.js@1 - 2.x" = .ok (.alias "@Foo/b.tgz.js" none target)) ∧
      (∃ refusal, npm.classify "NPM:@Foo/b.tgz.js@../bar@1" = .error (.invalid refusal) ∧
        refusal.code = "EINVALIDALIAS") ∧
      ∃ refusal, npm.classify "npm:@Foo/b.tgz.js@bar@1" = .error (.invalid refusal) ∧
        refusal.code = "EINVALIDTAGNAME" := by
  have hrange : npm.resolve placeholderName "1 - 2.x" =
      .ok { kind := "range", raw := "1 - 2.x", name := some "foo", fetch := some "1 - 2.x" } := by
    rw [npm_resolve_eq_ok, resolveChars_eq]
    rfl
  have hdirectory : npm.resolve placeholderName "../bar@1" =
      .ok ((ofFile "../bar@1".toList).withName "foo") := by
    rw [npm_resolve_eq_ok, resolveChars_eq]
    rfl
  have hnoTag : npm.resolve placeholderName "bar@1" =
      .error (SpecError.tagName "bar@1" "foo@bar@1").refusal := by
    show (resolveChars _ _).mapError _ = _
    rw [resolveChars_eq]
    rfl
  refine ⟨?_, ?_, ?_⟩
  · have hparts : AliasParts "nPm" "@Foo/b.tgz.js" "1 - 2.x" :=
      ⟨rfl, by decide, by decide, rfl, rfl⟩
    exact (npm_classify_aliasText hparts).1 _ hrange (by decide)
  · have hparts : AliasParts "NPM" "@Foo/b.tgz.js" "../bar@1" :=
      ⟨rfl, by decide, by decide, rfl, rfl⟩
    exact (npm_classify_aliasText hparts).2.1 _ hdirectory (by decide)
  · have hparts : AliasParts "npm" "@Foo/b.tgz.js" "bar@1" := ⟨rfl, by decide, by decide, rfl, rfl⟩
    exact (npm_classify_aliasText hparts).2.2 _ hnoTag

end Capabilities

end DepSpec
