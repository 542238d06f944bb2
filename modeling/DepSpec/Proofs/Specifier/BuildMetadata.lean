import DepSpec.Proofs.Resolution.Answers
import DepSpec.Proofs.Specifier.ExactVersions
import DepSpec.Proofs.Specifier.LocalPaths
import DepSpec.Proofs.Version.BuildText

set_option autoImplicit false

/-! # The build that is sent

The text of a version holds none of the characters that paths, addresses and URLs are told by, so
that it is looked up in a registry unless it ends like an archive (`ofPlain_of_namesNoPlace`). It is
then classified as the range of that version alone, and the build that is sent is that of its record.
Main statement: this is the build in the text exactly if no identifier of it is padded. -/

namespace DepSpec

open Text Resolution

/-! ## Texts that name no place -/

/-- A text without the characters that places are told by. -/
structure NamesNoPlace (spec : List Char) : Prop where
  colon : ':' ∉ spec
  slash : '/' ∉ spec
  atSign : '@' ∉ spec
  hash : '#' ∉ spec
  notLocal : isLocalPath spec = false

namespace NamesNoPlace

variable {spec : List Char}

theorem cut?_colon (h : NamesNoPlace spec) : cut? (· == ':') spec = none :=
  cut?_of_not_mem (beq_eq_false_of_not_mem h.colon)

theorem ofChars?_repository (h : NamesNoPlace spec) : Repository.ofChars? spec = none := by
  have hsplit : Repository.splitCommittish spec = (spec, none) := by
    rw [Repository.splitCommittish, cut?_of_not_mem (beq_eq_false_of_not_mem h.hash)]
  have hshorthand : Repository.isShorthand spec = false := by
    rw [Repository.isShorthand, splitSlashes_of_not_mem h.slash]
  have hshortcut : Repository.readShortcut? spec = none := by
    rw [Repository.readShortcut?, h.cut?_colon]
    rfl
  have hcopy : Repository.readSecureCopy? spec = none := by
    have hafter : after? "git@".toList spec = none := by
      rw [Option.eq_none_iff_forall_ne_some]
      intro rest hrest
      refine h.atSign ?_
      rw [after?_eq_some_iff.1 hrest]
      exact List.mem_append_left rest (by decide)
    rw [Repository.readSecureCopy?, hafter]
    rfl
  have hurl : Repository.readUrl? spec = none := by
    rw [Repository.readUrl?, h.cut?_colon]
    rfl
  rw [Repository.ofChars?, hsplit]
  simp only [hshorthand, if_neg Bool.false_ne_true, hshortcut, hcopy, hurl]

/-- Such a text is looked up in a registry, unless it ends like an archive. -/
theorem resolveChars_eq (h : NamesNoPlace spec) {name : Option String}
    (hname : checkName name = .ok ()) :
    resolveChars name spec =
      (if isTarball spec then .ok (ofFile spec) else ofRegistry name spec) >>= fun r =>
        .ok (r.withName name) := by
  have hfile : afterFile? spec = none := afterFolded?_eq_none (d := ':') (by decide) rfl h.colon
  have halias : afterAlias? spec = none := afterFolded?_eq_none (d := ':') (by decide) rfl h.colon
  have hurl : isUrl spec = false := by
    rw [isUrl, h.cut?_colon]
  have hslash : spec.contains '/' = false := by
    simpa using h.slash
  have hplain : ofPlain name spec =
      if isTarball spec then .ok (ofFile spec) else ofRegistry name spec := by
    rw [ofPlain, h.notLocal, hfile, h.ofChars?_repository, hurl, hslash]
    rfl
  rw [DepSpec.resolveChars_eq, hname, halias, ← hplain]
  rfl

end NamesNoPlace

theorem isLocalPath_eq_false {c : Char} {rest : List Char}
    (hc : c ∉ ['.', '/', '\\', '~']) (hcolon : ':' ∉ rest) : isLocalPath (c :: rest) = false := by
  have hhead : (rest.head? == some ':') = false :=
    beq_eq_false_iff_ne.2 fun hhead => hcolon (List.mem_of_mem_head? hhead)
  rw [isLocalPath_cons hc, hhead, Bool.false_and]

/-! ## Versions -/

namespace Version

variable {text : String} {v : Version}

/-- A loose version without the blanks around it is the same version. -/
theorem parseLoose?_trimmed (h : parseLoose? text = some v) :
    parseLoose? (Capabilities.trimmed text) = some v := by
  unfold parseLoose? at h ⊢
  split at h
  · cases h
  · next hlength =>
    have hshort : byteLength (trim text.toList) ≤ byteLength text.toList := by
      obtain ⟨front, back, hsplit, -⟩ := trim_spec text.toList
      have hsum := congrArg byteLength hsplit
      rw [byteLength_append, byteLength_append] at hsum
      omega
    rw [Capabilities.toList_trimmed, trim_trim,
      if_neg (Nat.not_lt.2 (hshort.trans (Nat.not_lt.1 hlength)))]
    exact h

theorem namesNoPlace_of_parseLoose? (h : parseLoose? text = some v) :
    NamesNoPlace (trim text.toList) := by
  obtain ⟨lead, body, t, htrim, hlead, -, ht, -⟩ := parseLoose?_eq_some h
  have hchars := PartialText.isVersionChar_of_ofParts? ht
  have hnot {c : Char} (hc : (PartialText.isLead c || isVersionChar c) = false) :
      c ∉ lead ++ body := by
    rw [Bool.or_eq_false_iff] at hc
    intro hmem
    rcases List.mem_append.1 hmem with hmem | hmem
    · rw [hlead c hmem] at hc
      cases hc.1
    · rw [hchars c hmem] at hc
      cases hc.2
  -- The text begins with a lead character or with the first part.
  obtain ⟨c, rest, hcons, hc⟩ : ∃ c rest, lead ++ body = c :: rest ∧
      (PartialText.isLead c || isPartChar c) = true := by
    cases lead with
    | nil =>
      obtain ⟨c, rest, rfl, hc⟩ := PartialText.exists_head_of_ofParts? ht
      exact ⟨c, rest, rfl, by rw [hc, Bool.or_true]⟩
    | cons c lead => exact ⟨c, lead ++ body, rfl, by rw [hlead c List.mem_cons_self, Bool.true_or]⟩
  rw [htrim]
  refine ⟨hnot (by decide), hnot (by decide), hnot (by decide), hnot (by decide), ?_⟩
  rw [hcons]
  refine isLocalPath_eq_false ?_ ?_
  · intro hmem
    simp only [List.mem_cons, List.not_mem_nil, or_false] at hmem
    rcases hmem with rfl | rfl | rfl | rfl <;> exact absurd hc (by decide)
  · have hcolon : ':' ∉ c :: rest := hcons ▸ hnot (by decide)
    exact fun hmem => hcolon (List.mem_cons_of_mem c hmem)

end Version

namespace Capabilities

variable {text : String} {v : Version}

/-- **A loose version is classified as the range of itself**, unless its text ends like an archive:
    then it is a file of that name. -/
theorem npm_classify_of_parseLoose? (h : Version.parseLoose? text = some v) :
    npm.classify text =
      .ok (if isTarball (trim text.toList) then .file (trimmed text)
        else .range (.exactly v.record)) := by
  have hplace := Version.namesNoPlace_of_parseLoose? h
  have htrimmed := Version.parseLoose?_trimmed h
  have hresolve := @NamesNoPlace.resolveChars_eq _ hplace (some placeholderName) rfl
  have hne : (trim text.toList).isEmpty = false := by
    obtain ⟨lead, body, t, htrim, -, -, ht, -⟩ := Version.parseLoose?_eq_some h
    rw [htrim, List.isEmpty_eq_false_iff]
    exact List.append_ne_nil_of_right_ne_nil lead (PartialText.ne_nil_of_ofParts? ht)
  cases htarball : isTarball (trim text.toList) with
  | true =>
    rw [htarball, if_pos rfl] at hresolve
    have hr : npm.resolve placeholderName (trimmed text) =
        .ok ((ofFile (trim text.toList)).withName placeholderName) := by
      rw [npm_resolve_eq_ok, toList_trimmed, hresolve]
      rfl
    -- Without a colon the text has no `file:` in front, neither for the resolver nor for the plan.
    have hfile : afterFile? (trim text.toList) = none :=
      afterFolded?_eq_none (d := ':') (by decide) rfl hplace.colon
    have hlocal : Plan.localPath (trimmed text) = trimmed text := by
      have hafter : after? "file:".toList (trim text.toList) = none := by
        rw [Option.eq_none_iff_forall_ne_some]
        intro rest hrest
        refine hplace.colon ?_
        rw [after?_eq_some_iff.1 hrest]
        exact List.mem_append_left rest (by decide)
      rw [Plan.localPath, toList_trimmed, hafter]
      rfl
    have hkind : ((ofFile (trim text.toList)).withName placeholderName).kind = "file" := by
      rw [withName, ofFile, hfile]
      exact if_pos htarball
    have hplan : npm.plan text = .ok (.done (.file (trimmed text))) := by
      rw [plan_of_resolve hr, Plan.ofResolution, hkind]
      exact congrArg (fun path => Except.ok (Plan.done (.file path))) hlocal
    rw [classify, hplan]
    rfl
  | false =>
    rw [htarball, if_neg Bool.false_ne_true] at hresolve
    have hregistry : ofRegistry (some placeholderName) (trim text.toList) =
        .ok { kind := "version", raw := trimmed text, fetch := some (trimmed text) } := by
      have hsome : (Version.parseLoose? (trimmed text)).isSome = true := by
        rw [htrimmed]
        rfl
      rw [ofRegistry, hne, trim_trim]
      exact if_pos hsome
    rw [hregistry] at hresolve
    have hr : npm.resolve placeholderName (trimmed text) =
        .ok { kind := "version", raw := trimmed text, name := some placeholderName,
              fetch := some (trimmed text) } := by
      rw [npm_resolve_eq_ok, toList_trimmed, hresolve]
      rfl
    have hplan : npm.plan text = .ok (.range (trimmed text)) := by
      rw [plan_of_resolve hr]
      rfl
    exact npm_classify_of_plan none hplan htrimmed

/-- **The build is sent as it stands exactly if nothing in it is padded.** What is sent for a version
    is the range of its record, or the name of a file, and the record shows the build identifiers of
    the text without the zeros in front of numerals that fit a word. The record that the strict
    grammar gives keeps these zeros. -/
theorem build_is_verbatim_iff (h : Version.parseLoose? text = some v) :
    v.record.build = (shownBuild text).map (fun token => String.ofList (unpadded token)) ∧
      (v.record.build = (shownBuild text).map String.ofList ↔
        ∀ token ∈ shownBuild text, isPadded token = false) ∧
      npm.classify text =
        .ok (if isTarball (trim text.toList) then .file (trimmed text)
          else .range (.exactly v.record)) ∧
      ∀ w, VersionRecord.parse text = .ok w →
        (v.record.build = w.build ↔ ∀ token ∈ shownBuild text, isPadded token = false) := by
  have hbuild := Version.build_of_parseLoose? h
  have hverbatim : v.record.build = (shownBuild text).map String.ofList ↔
      ∀ token ∈ shownBuild text, isPadded token = false := by
    rw [hbuild, List.map_inj_left]
    refine forall₂_congr fun token _ => ?_
    rw [String.ofList_inj, unpadded_eq_self_iff]
  refine ⟨hbuild, hverbatim, npm_classify_of_parseLoose? h, fun w hw => ?_⟩
  rw [VersionRecord.build_of_parse hw]
  exact hverbatim

/-- Zeros in front of digits are kept where there is a letter among them, or where the numeral fits
    no word. -/
theorem letters_and_wide_numerals_are_verbatim :
    ∃ v w, Version.parseLoose? " v1.2.3-rc+0.00a.0018446744073709551616 " = some v ∧
      VersionRecord.parse " v1.2.3-rc+0.00a.0018446744073709551616 " = .ok w ∧
      npm.classify " v1.2.3-rc+0.00a.0018446744073709551616 " =
        .ok (.range (.exactly v.record)) ∧
      v.record.build = w.build ∧ w.build = ["0", "00a", "0018446744073709551616"] := by
  have hv : Version.parseLoose? " v1.2.3-rc+0.00a.0018446744073709551616 " =
      some { major := 1, minor := 2, patch := 3, prerelease := [.alphanumeric "rc"],
             build := [.numeric 0, .alphanumeric "00a",
                       .alphanumeric "0018446744073709551616"] } := by
    decide +kernel
  have hw : VersionRecord.parse " v1.2.3-rc+0.00a.0018446744073709551616 " =
      .ok { major := 1, minor := 2, patch := 3, prerelease := [.text "rc"],
            build := ["0", "00a", "0018446744073709551616"] } := by
    rfl
  obtain ⟨-, -, hclassify, hstrict⟩ := build_is_verbatim_iff hv
  exact ⟨_, _, hv, hw, hclassify, (hstrict _ hw).2 (by decide +kernel), rfl⟩

/-- A zero in front of a digit is lost. -/
theorem padded_build_is_changed :
    ∃ v w, Version.parseLoose? "1.2.3+01" = some v ∧ VersionRecord.parse "1.2.3+01" = .ok w ∧
      npm.classify "1.2.3+01" = .ok (.range (.exactly v.record)) ∧ v.record.build = ["1"] ∧
      (shownBuild "1.2.3+01").map String.ofList = ["01"] ∧ w.build = ["01"] := by
  have hv : Version.parseLoose? "1.2.3+01" =
      some { major := 1, minor := 2, patch := 3, build := [.numeric 1] } := by
    decide +kernel
  have hw : VersionRecord.parse "1.2.3+01" =
      .ok { major := 1, minor := 2, patch := 3, build := ["01"] } := by
    rfl
  exact ⟨_, _, hv, hw, npm_classify_of_parseLoose? hv, rfl, rfl, rfl⟩

end Capabilities

end DepSpec
