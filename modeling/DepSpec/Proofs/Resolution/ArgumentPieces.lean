import DepSpec.Proofs.Resolution.PackageArguments

set_option autoImplicit false

/-! # What an answer keeps of an argument

A package argument is taken apart before it is resolved, and the answer still holds all of it: the
package name, and as the text of the specifier what stood behind the `@` (`Resolution.Keeps`). Taking
an argument apart loses nothing (`Argument.takenFrom_ofChars`), and resolving a specifier keeps it as
it was given (`raw_of_resolveChars`). The target of an alias keeps what stands behind `npm:` in the
same way. -/

namespace DepSpec

open Text Resolution

/-! ## Taking an argument apart -/

namespace Argument

/-- The ways to take an argument apart without losing anything of it. -/
inductive TakenFrom (arg : List Char) : Argument → Prop
  | bare : TakenFrom arg (.bare arg)
  | named {name spec : List Char} (h : arg = name ++ '@' :: spec) : TakenFrom arg (.named name spec)
  | nameAlone : TakenFrom arg (.named arg [])
  | secureCopy (h : isSecureCopy arg = true) : TakenFrom arg (.secureCopy arg)

theorem cut?_at_eq_some {arg name spec : List Char} (h : cut? (· == '@') arg = some (name, spec)) :
    arg = name ++ '@' :: spec := by
  obtain ⟨c, hc, harg, -⟩ := cut?_eq_some h
  rw [harg, beq_iff_eq.1 hc]

theorem splitName?_eq_some {arg name spec : List Char} (h : splitName? arg = some (name, spec)) :
    arg = name ++ '@' :: spec := by
  unfold splitName? at h
  split at h
  · next rest =>
    obtain ⟨⟨base, spec'⟩, hcut, heq⟩ := Option.map_eq_some_iff.1 h
    cases heq
    rw [cut?_at_eq_some hcut]
    rfl
  · exact cut?_at_eq_some h

/-- **Taking an argument apart loses nothing.** -/
theorem takenFrom_ofChars (arg : List Char) : TakenFrom arg (ofChars arg) := by
  unfold ofChars
  dsimp only
  split
  · exact .bare
  · split
    · next hcopy => exact .secureCopy hcopy
    · split
      · exact .bare
      · split
        · next hsplit => exact .named (splitName?_eq_some hsplit)
        · split
          · exact .nameAlone
          · exact .bare

end Argument

/-! ## Resolving a specifier -/

/-- An answer names the package and keeps the specifier. -/
theorem raw_of_resolveChars {name : Option String} {spec : List Char} {r : Resolution}
    (h : resolveChars name spec = .ok r) :
    checkName name = .ok () ∧ r.name = name ∧ r.raw = String.ofList spec := by
  obtain ⟨hname, ⟨-, q, hplain, rfl⟩ | ⟨arg, target, -, -, -, rfl⟩⟩ := resolveChars_cases h
  · exact ⟨hname, rfl, (name_and_raw_of_ofPlain (r := q) hplain).2⟩
  · exact ⟨hname, rfl, rfl⟩

/-! ## Resolving an argument -/

namespace Resolution

/-- What an answer keeps of the argument that it is for: a valid package name and the specifier
    behind its `@`, or the name alone, or the whole argument as a specifier, or the URL of an address
    in secure-copy form. -/
inductive Keeps (arg : String) (r : Resolution) : Prop
  | nameAndSpec {name : String} (hname : r.name = some name)
      (hvalid : PackageName.isValid name.toList = true) (h : arg = name ++ "@" ++ r.raw)
  | nameAlone {name : String} (hname : r.name = some name)
      (hvalid : PackageName.isValid name.toList = true) (h : arg = name) (hraw : r.raw = "")
  | spec (hname : r.name = none) (h : r.raw = arg)
  | address (hname : r.name = none) (hcopy : Argument.isSecureCopy arg.toList = true)
      (h : r.raw = "git+ssh://" ++ arg)

/-- **An answer keeps the argument that it is for.** -/
theorem keeps_of_resolveArgument {arg : String} {r : Resolution}
    (h : resolveArgument arg = .ok r) : r.Keeps arg := by
  have htaken := Argument.takenFrom_ofChars arg.toList
  unfold resolveArgument at h
  split at h
  · next spec harg =>
    obtain ⟨-, hname, hraw⟩ := raw_of_resolveChars h
    rw [harg] at htaken
    cases htaken
    exact .spec hname (hraw.trans String.ofList_toList)
  · next name spec harg =>
    obtain ⟨hcheck, hname, hraw⟩ := raw_of_resolveChars h
    have hvalid := checkName_eq_ok_iff.1 hcheck
    rw [harg] at htaken
    cases htaken with
    | named heq =>
      refine .nameAndSpec hname hvalid ?_
      have hat : "@" = String.ofList ['@'] := rfl
      rw [hraw, hat, ← String.ofList_append, ← String.ofList_append, List.append_assoc,
        List.singleton_append, ← heq, String.ofList_toList]
    | nameAlone => exact .nameAlone hname hvalid String.ofList_toList.symm hraw
  · next address harg =>
    obtain ⟨-, hname, hraw⟩ := raw_of_resolveChars h
    rw [harg] at htaken
    cases htaken with
    | secureCopy hcopy =>
      have hurl : secureCopyUrl arg.toList = ("git+ssh://" ++ arg).toList :=
        String.toList_append.symm
      exact .address hname hcopy (by rw [hraw, hurl, String.ofList_toList])

/-- The target of an alias keeps what stands behind the four bytes of `npm:`. -/
def TargetKept (r : Resolution) : Prop :=
  r.kind = "alias" →
    ∃ scheme arg target, r.raw = scheme ++ arg ∧ byteLength scheme.toList = 4 ∧
      lowerAscii scheme.toList = "npm:".toList ∧ r.target = some target ∧ target.Keeps arg

theorem targetKept_of_resolveChars {name : Option String} {spec : List Char} {r : Resolution}
    (h : resolveChars name spec = .ok r) : r.TargetKept := by
  intro hkind
  obtain ⟨-, ⟨-, q, hplain, rfl⟩ | ⟨arg, target, halias, htarget, -, rfl⟩⟩ := resolveChars_cases h
  · exact absurd hkind (kind_ne_alias_of_ofPlain (r := q) hplain)
  · obtain ⟨scheme, hspec, hscheme⟩ := afterFolded?_eq_some_iff.1 halias
    have hlower := lowerAscii_of_map_foldCase hscheme (by decide) (by decide)
    have hlength : scheme.length = 4 := by simpa using congrArg List.length hscheme
    refine ⟨String.ofList scheme, String.ofList arg, target, ?_, ?_, ?_, rfl,
      keeps_of_resolveArgument htarget⟩
    · exact (congrArg String.ofList hspec).trans String.ofList_append
    · rw [String.toList_ofList, byteLength_of_lowerAscii (hlower ▸ by simp), hlength]
    · rw [String.toList_ofList, hlower]

theorem targetKept_of_resolveArgument {arg : String} {r : Resolution}
    (h : resolveArgument arg = .ok r) : r.TargetKept := by
  unfold resolveArgument at h
  split at h <;> exact targetKept_of_resolveChars h

/-! ## The law -/

/-- **Nothing of an argument is lost.** The answer to an argument keeps it, as the answer to a specifier
    keeps the specifier; and so does the target of an alias, of what stands behind `npm:`. -/
theorem arguments_are_kept :
    (∀ arg r, resolveArgument arg = .ok r → r.Keeps arg ∧ r.TargetKept) ∧
      ∀ name spec r, resolve name spec = .ok r → r.raw = spec ∧ r.TargetKept := by
  refine ⟨fun arg r h => ?_, fun name spec r h => ?_⟩
  · exact ⟨keeps_of_resolveArgument h, targetKept_of_resolveArgument h⟩
  · exact ⟨(raw_of_resolveChars h).2.2.trans String.ofList_toList, targetKept_of_resolveChars h⟩

/-- A scoped name in front of a specifier with an `@` of its own, and a name in front of an alias in
    capitals. -/
theorem scope_and_capitals_are_kept :
    (∃ r, resolveArgument "@scope/pkg@user/repo#v@2" = .ok r ∧ r.name = some "@scope/pkg" ∧
        r.raw = "user/repo#v@2" ∧ r.Keeps "@scope/pkg@user/repo#v@2") ∧
      ∃ r, resolveArgument "foo@NPM:bar" = .ok r ∧ r.kind = "alias" ∧ r.raw = "NPM:bar" ∧
        ∃ scheme arg target, "NPM:bar" = scheme ++ arg ∧ byteLength scheme.toList = 4 ∧
          lowerAscii scheme.toList = "npm:".toList ∧ r.target = some target ∧ target.Keeps arg := by
  have hargument : resolveArgument "@scope/pkg@user/repo#v@2" =
      .ok ((ofRepository "user/repo#v@2".toList
        ⟨.gitHub, "user", "repo", some "v@2", .shortcut⟩).withName "@scope/pkg") := by
    show resolveChars (some "@scope/pkg") "user/repo#v@2".toList = _
    rw [resolveChars_eq]
    rfl
  have halias : resolveArgument "foo@NPM:bar" =
      .ok { kind := "alias", raw := "NPM:bar", name := some "foo",
            target := some { kind := "tag", raw := "", name := some "bar",
                             fetch := some "latest" } } := by
    show resolveChars (some "foo") "NPM:bar".toList = _
    rw [resolveChars_eq]
    show (resolveChars (some "bar") [] >>= _) >>= _ = _
    rw [resolveChars_eq]
    rfl
  obtain ⟨harguments, -⟩ := arguments_are_kept
  exact ⟨⟨_, hargument, rfl, rfl, (harguments _ _ hargument).1⟩,
    ⟨_, halias, rfl, rfl, (harguments _ _ halias).2 rfl⟩⟩

end Resolution

end DepSpec
