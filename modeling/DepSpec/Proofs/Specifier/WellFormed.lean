import DepSpec.Proofs.Range.WrittenForm
import DepSpec.Proofs.Resolution.PackageArguments
import DepSpec.Proofs.Specifier.LocalPaths

set_option autoImplicit false

/-! # Classified specifiers are well formed

Everything that classification by the rules of npm can give is well formed. The resolver's answer
leaves a plan, and the plan is either a specifier already or a range text that goes to the parser.
So there are two parts: what a plan promises, one lemma for each way an answer comes about
(`Plan.wellFormed_of_resolveChars`), and what a range promises that was parsed and sent
(`ParsedRange.wellFormed_constraint`). -/

namespace DepSpec

open Text Resolution

/-! ## Ranges as they are sent -/

/-- Only the mark for any version is sent as the mark for any version. -/
theorem Clause.eq_any_of_comparator {c : Clause} (h : c.comparator = .ok .any) : c = .any := by
  obtain ⟨operator, bound⟩ := c
  unfold comparator at h
  cases bound with
  | any =>
    dsimp only at h
    split at h
    · next hop => rw [hop, any]
    · cases h
  | version v =>
    dsimp only at h
    split at h
    · cases h
    · cases h

/-- **A range that was read is well formed when it is sent.** -/
theorem ParsedRange.wellFormed_constraint {text : String} {range : ParsedRange} {sent : Constraint}
    (h : parse? text = some range) (hsent : range.constraint = .ok sent) : sent.WellFormed := by
  obtain ⟨hne, hgroups, habsorb⟩ := parse?_spec h
  have hall : List.Forall₂ (fun group sentGroup =>
      List.Forall₂ (fun c comparator => Clause.comparator c = .ok comparator) group sentGroup)
      range sent :=
    (mapM_eq_ok_iff.1 hsent).imp fun _ _ => mapM_eq_ok_iff.1
  refine ⟨?_, ?_, ?_⟩
  · rintro rfl
    exact hne (List.forall₂_nil_right_iff.1 hall)
  · rintro sentGroup hmem rfl
    obtain ⟨group, hgroup, hclauses⟩ := exists_of_forall₂ hall hmem
    exact hgroups group hgroup (List.forall₂_nil_right_iff.1 hclauses)
  · intro hlength hany
    obtain ⟨group, hgroup, hclauses⟩ := exists_of_forall₂ hall hany
    obtain ⟨c, rest, hc, hrest, rfl⟩ := List.forall₂_cons_right_iff.1 hclauses
    obtain rfl := List.forall₂_nil_right_iff.1 hrest
    obtain rfl := Clause.eq_any_of_comparator hc
    -- The group that means any version has taken the place of all others.
    have hrange : range = [[Clause.any]] := habsorb.symm.trans (if_pos hgroup)
    rw [← hall.length_eq, hrange] at hlength
    exact absurd hlength (by decide)

/-! ## Plans -/

/-- Every form shows the path, which has a slash in it. -/
theorem Repository.text_ne_empty (repo : Repository) : repo.text ≠ "" := by
  have hleft {s t : String} (h : s ++ t = "") : s = "" := (String.append_eq_empty_iff.1 h).1
  have hright {s t : String} (h : s ++ t = "") : t = "" := (String.append_eq_empty_iff.1 h).2
  have hpath : repo.path ≠ "" := fun h => absurd (hright (hleft h)) (by decide)
  unfold text
  split
  · exact fun h => hpath (hright (hleft h))
  · exact fun h => hpath (hright (hleft (hleft h)))
  · exact fun h => hpath (hright (hleft (hleft h)))
  · exact fun h => hpath (hright (hleft (hleft h)))

namespace Plan

/-- What a plan promises: a settled specifier is well formed, and the package of an alias has a
    valid name. -/
def WellFormed : Plan → Prop
  | .done spec => spec.WellFormed
  | .range _ => True
  | .aliasRange name _ => PackageName.isValid name.toList = true

theorem wellFormed_of_ofFile {name : Option String} {spec : List Char} {plan : Plan}
    (h : ofResolution ((ofFile spec).withName name) = .ok plan) : plan.WellFormed := by
  have hending := isTarball_localPath spec
  by_cases htarball : isTarball (filePath spec) = true
  · have hkind : ((ofFile spec).withName name).kind = "file" := if_pos htarball
    rw [ofResolution, hkind] at h
    cases h
    exact hending.trans htarball
  · have hkind : ((ofFile spec).withName name).kind = "directory" := if_neg htarball
    rw [ofResolution, hkind] at h
    cases h
    exact hending.trans (Bool.eq_false_iff.2 htarball)

theorem wellFormed_of_ofRepository {name : Option String} {spec : List Char} {repo : Repository}
    {plan : Plan} (h : ofResolution ((ofRepository spec repo).withName name) = .ok plan) :
    plan.WellFormed := by
  cases h
  exact repo.text_ne_empty

theorem wellFormed_of_ofUrl {name : Option String} {spec : List Char} {r : Resolution} {plan : Plan}
    (hurl : isUrl spec = true) (hr : ofUrl spec = .ok r)
    (h : ofResolution (r.withName name) = .ok plan) : plan.WellFormed := by
  rcases ofUrl_cases hr with ⟨-, rfl⟩ | ⟨-, rfl⟩
  · cases h
    show String.ofList spec ≠ ""
    rintro hempty
    obtain rfl : spec = [] := by simpa using hempty
    cases hurl
  · cases h
    trivial

theorem wellFormed_of_ofRegistry {name name' : Option String} {spec : List Char} {r : Resolution}
    {plan : Plan} (hr : ofRegistry name spec = .ok r)
    (h : ofResolution (r.withName name') = .ok plan) : plan.WellFormed := by
  obtain ⟨kind, text, rfl, ⟨rfl, -⟩ | ⟨rfl, -⟩ | ⟨rfl, htag⟩⟩ := ofRegistry_cases hr
  · cases h
    trivial
  · cases h
    trivial
  · cases h
    exact htag

/-- The target of an alias was resolved for a package with a valid name, or for none. -/
theorem wellFormed_of_ofTarget {name : Option String} {spec : List Char} {target : Resolution}
    {plan : Plan} (htarget : resolveChars name spec = .ok target)
    (hkind : target.kind ∈ ["tag", "version", "range"]) (h : ofTarget target = .ok plan) :
    plan.WellFormed := by
  obtain ⟨hname, -⟩ := resolveChars_cases htarget
  obtain ⟨q, hq, rfl⟩ := ofRegistry_of_resolveChars htarget hkind
  have hvalid {n : String} (hn : name = some n) : PackageName.isValid n.toList = true :=
    checkName_eq_ok_iff.1 (hn ▸ hname)
  obtain ⟨kind, text, rfl, ⟨rfl, -⟩ | ⟨rfl, -⟩ | ⟨rfl, htag⟩⟩ := ofRegistry_cases hq
  · cases name with
    | none => cases h; trivial
    | some n => cases h; exact hvalid rfl
  · cases name with
    | none => cases h; trivial
    | some n => cases h; exact hvalid rfl
  · cases name with
    | none => cases h; exact htag
    | some n => cases h; exact ⟨rfl, hvalid rfl, htag⟩

/-- **What an answer of the resolver leaves to do is well formed.** -/
theorem wellFormed_of_resolveChars {name : Option String} {spec : List Char} {r : Resolution}
    {plan : Plan} (hr : resolveChars name spec = .ok r) (h : ofResolution r = .ok plan) :
    plan.WellFormed := by
  rcases resolveChars_cases hr with
    ⟨-, ⟨-, q, hq, rfl⟩ | ⟨arg, target, -, htarget, hkind, rfl⟩⟩
  · rcases ofPlain_cases hq with rfl | ⟨repo, rfl⟩ | ⟨hurl, hq⟩ | hq
    · exact wellFormed_of_ofFile h
    · exact wellFormed_of_ofRepository h
    · exact wellFormed_of_ofUrl hurl hq h
    · exact wellFormed_of_ofRegistry hq h
  · obtain ⟨name', spec', htarget⟩ := resolveArgument_cases htarget
    exact wellFormed_of_ofTarget htarget hkind h

end Plan

/-! ## Classification -/

namespace Capabilities

theorem npm_parseRange_eq_ok {text : String} {range : ParsedRange} :
    npm.parseRange text = .ok range ↔ ParsedRange.parse? text = some range := by
  show (readRange text).mapError _ = _ ↔ _
  rw [mapError_eq_ok_iff, readRange]
  split
  · next h => simp [h]
  · next h => simp [h]

theorem npm_constraint_wellFormed {text : String} {sent : Constraint}
    (h : npm.constraint text = .ok sent) : sent.WellFormed := by
  obtain ⟨range, hrange, hsent⟩ := bind_eq_ok_iff.1 h
  rw [mapError_eq_ok_iff] at hrange hsent
  exact ParsedRange.wellFormed_constraint (npm_parseRange_eq_ok.1 hrange) hsent

/-- **Every classified specifier is well formed.** A tag is a nonempty text of characters that a URI
    component leaves alone and is neither a version nor a range. A range has groups, none of them
    empty, and none of several groups means any version alone. An alias has no registry, a valid
    name and a well-formed target. The path of a file ends like an archive, that of a directory
    does not, and a repository has a nonempty URL. -/
theorem npm_classify_wellFormed {raw : String} {spec : Specifier}
    (h : npm.classify raw = .ok spec) : spec.WellFormed := by
  obtain ⟨plan, hplan, h⟩ := bind_eq_ok_iff.1 h
  obtain ⟨r, hr, hplan⟩ := bind_eq_ok_iff.1 hplan
  rw [mapError_eq_ok_iff, npm_resolve_eq_ok] at hr
  have hwell := Plan.wellFormed_of_resolveChars hr hplan
  cases plan with
  | done spec' =>
    cases h
    exact hwell
  | range text =>
    obtain ⟨sent, hsent, rfl⟩ := map_eq_ok_iff.1 h
    exact npm_constraint_wellFormed hsent
  | aliasRange name text =>
    obtain ⟨sent, hsent, rfl⟩ := map_eq_ok_iff.1 h
    exact ⟨rfl, hwell, npm_constraint_wellFormed hsent⟩

/-- From 1.0.0 on below 2.0.0, or above 2.0.0-0. -/
def twoGroups : Constraint :=
  [[.compare .gte { major := 1, minor := 0, patch := 0 },
    .compare .lt { major := 2, minor := 0, patch := 0 }],
   [.compare .gt { major := 2, minor := 0, patch := 0, prerelease := [.int 0] }]]

/-- An alias for two groups, one of which loses a word that cannot be read. -/
theorem npm_alias_of_twoGroups_wellFormed :
    npm.classify " nPm:@Bar/b.z@1.x || >2.0.0-0 junk " =
        .ok (.alias "@Bar/b.z" none (.range twoGroups)) ∧
      (Specifier.alias "@Bar/b.z" none (.range twoGroups)).WellFormed := by
  have hclassify : npm.classify " nPm:@Bar/b.z@1.x || >2.0.0-0 junk " =
      .ok (.alias "@Bar/b.z" none (.range twoGroups)) :=
    eq_ok_of_toOption (by decide +kernel)
  exact ⟨hclassify, npm_classify_wellFormed hclassify⟩

end Capabilities

end DepSpec
