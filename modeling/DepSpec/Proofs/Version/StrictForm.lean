import DepSpec.Proofs.Version.WrittenForm
import DepSpec.Version.Grammar

set_option autoImplicit false

/-! # Strict versions are loose versions

Two readers take a version apart. The strict one cuts the text at its first plus sign, the front at
its first hyphen and the rest at its dots; the loose one reads parts off the front. A text that the
strict reader takes is put together from the pieces it found (`StrictText.chars_of_ofChars?`), and
every piece belongs to a class that the loose reader knows as well, so that the loose reader finds
the same pieces. The kind of an identifier is decided by its token alone, on either way.

The loose reader has a limit on the length of the text, which the strict one does not have. -/

namespace DepSpec

open Text

/-! ## Cutting and joining -/

/-- What is cut at its dots is put together by dots. -/
theorem dotted_splitDots (lead : Char) (cs : List Char) :
    dotted lead (splitDots cs) = lead :: cs := by
  induction cs generalizing lead with
  | nil => rfl
  | cons c cs ih =>
    simp only [splitDots] at ih
    simp only [splitDots, splitWhere]
    by_cases hc : c = '.'
    · subst hc
      simp [dotted, ih]
    · rw [if_neg (by simpa using hc)]
      split
      · next hnil => exact absurd hnil (splitWhere_ne_nil _ cs)
      · next token tokens hsplit =>
        have hcs := ih lead
        rw [hsplit] at hcs
        simpa [dotted] using hcs

theorem dotted_of_readTokens? {isToken : List Char → Bool} {cs : List Char}
    {tokens : List (List Char)} (h : readTokens? isToken cs = some tokens) (lead : Char) :
    dotted lead tokens = lead :: cs := by
  unfold readTokens? at h
  split at h
  · cases h
    exact dotted_splitDots lead cs
  · cases h

/-- A text that is cut once and behind the cut at its dots. -/
theorem append_dotted_of_cut? {isToken : List Char → Bool} {lead : Char} {cs front rest : List Char}
    {tokens : List (List Char)} (hcut : cut? (· == lead) cs = some (front, rest))
    (h : readTokens? isToken rest = some tokens) : front ++ dotted lead tokens = cs := by
  obtain ⟨c, hc, rfl, -⟩ := cut?_eq_some hcut
  rw [dotted_of_readTokens? h, beq_iff_eq.1 hc]

theorem append_dotted_of_readBuild? {cs front : List Char} {build : List (List Char)}
    (h : readBuild? cs = some (front, build)) : front ++ dotted '+' build = cs := by
  unfold readBuild? at h
  split at h
  · cases h
    simp [dotted]
  · next hcut =>
    obtain ⟨tokens, htokens, heq⟩ := Option.map_eq_some_iff.1 h
    cases heq
    exact append_dotted_of_cut? hcut htokens

/-! ## Tokens of both grammars -/

theorem isDigitToken_of_isCanonicalNumber {ds : List Char} (h : isCanonicalNumber ds = true) :
    isDigitToken ds = true := by
  cases ds with
  | nil => cases h
  | cons c rest =>
    simp only [isCanonicalNumber, Bool.or_eq_true, Bool.and_eq_true, beq_iff_eq,
      List.isEmpty_iff, decide_eq_true_eq] at h
    rcases h with ⟨rfl, rfl⟩ | ⟨⟨hlow, hhigh⟩, hrest⟩
    · decide
    · have hdigit : c.isDigit = true := by
        simp only [Char.isDigit, ge_iff_le, Bool.and_eq_true, decide_eq_true_eq]
        exact ⟨Char.le_trans (by decide : '0' ≤ '1') hlow, hhigh⟩
      simp [isDigitToken, isDecimalDigit_of_isDigit hdigit, hrest]

/-- A prerelease identifier of the strict grammar is one of the loose grammar. -/
theorem isLooseToken_of_isStrictToken {token : List Char} (h : isStrictToken token = true) :
    isLooseToken token = true := by
  rw [isStrictToken, Bool.or_eq_true] at h
  rw [isLooseToken, Bool.or_eq_true]
  exact h.imp_left isDigitToken_of_isCanonicalNumber

/-! ## The pieces of a strict version -/

namespace StrictText

/-- The pieces are numbers and identifiers of the strict grammar. -/
structure HasTokens (t : StrictText) : Prop where
  major : isCanonicalNumber t.major = true
  minor : isCanonicalNumber t.minor = true
  patch : isCanonicalNumber t.patch = true
  prerelease : ∀ token ∈ t.prerelease, isStrictToken token = true
  build : ∀ token ∈ t.build, isBuildToken token = true

theorem readPrerelease?_spec {cs core : List Char} {prerelease : List (List Char)}
    (h : readPrerelease? cs = some (core, prerelease)) :
    core ++ dotted '-' prerelease = cs ∧ ∀ t ∈ prerelease, isStrictToken t = true := by
  unfold readPrerelease? at h
  split at h
  · cases h
    exact ⟨by simp [dotted], nofun⟩
  · next hcut =>
    obtain ⟨tokens, htokens, heq⟩ := Option.map_eq_some_iff.1 h
    cases heq
    exact ⟨append_dotted_of_cut? hcut htokens, isToken_of_readTokens? htokens⟩

/-- **A text that is read is put together from its pieces**, and they are of the grammar. -/
theorem chars_of_ofChars? {cs : List Char} {t : StrictText} (h : ofChars? cs = some t) :
    t.chars = cs ∧ t.HasTokens := by
  unfold ofChars? at h
  obtain ⟨⟨front, build⟩, hbuild, h⟩ := Option.bind_eq_some_iff.1 h
  obtain ⟨⟨core, prerelease⟩, hpre, h⟩ := Option.bind_eq_some_iff.1 h
  obtain ⟨numbers, hnumbers, h⟩ := Option.bind_eq_some_iff.1 h
  obtain ⟨hfront, hstrict⟩ := readPrerelease?_spec hpre
  have hcs := append_dotted_of_readBuild? hbuild
  have hnumber := isToken_of_readTokens? hnumbers
  split at h
  · next major minor patch =>
    cases h
    have hcore : major ++ '.' :: minor ++ '.' :: patch = core := by
      simpa [dotted] using dotted_of_readTokens? hnumbers '.'
    refine ⟨?_, ?_, ?_, ?_, hstrict, isBuildToken_of_readBuild? hbuild⟩
    · rw [chars, hcore, hfront, hcs]
    · exact hnumber major (by simp)
    · exact hnumber minor (by simp)
    · exact hnumber patch (by simp)
  · cases h

theorem not_mem_of_isCanonicalNumber {ds : List Char} (h : isCanonicalNumber ds = true) {d : Char}
    (hd : isDecimalDigit d = false) : d ∉ ds := by
  have hdigits := isDigitToken_of_isCanonicalNumber h
  rw [isDigitToken, Bool.and_eq_true] at hdigits
  intro hmem
  rw [List.all_eq_true.1 hdigits.2 d hmem] at hd
  cases hd

theorem readPrerelease?_core {core : List Char} (hcore : '-' ∉ core) {prerelease : List (List Char)}
    (h : ∀ t ∈ prerelease, isStrictToken t = true) :
    readPrerelease? (core ++ dotted '-' prerelease) = some (core, prerelease) := by
  have hhyphen := beq_eq_false_of_not_mem hcore
  cases prerelease with
  | nil => rw [dotted, List.append_nil, readPrerelease?, cut?_of_not_mem hhyphen]
  | cons token tokens =>
    have hdot (t : List Char) (ht : isStrictToken t = true) : '.' ∉ t :=
      not_mem_of_isLooseToken (isLooseToken_of_isStrictToken ht) (by decide)
    rw [dotted, List.cons_append, readPrerelease?, cut?_piece hhyphen rfl]
    dsimp only
    rw [readTokens?_dotted hdot h]
    rfl

/-- **A version that is put together from pieces of the grammar is read as these pieces.** -/
theorem HasTokens.ofChars?_chars {t : StrictText} (h : t.HasTokens) :
    ofChars? t.chars = some t := by
  have hnumber {d : Char} (hd : isDecimalDigit d = false) (hdot : d ≠ '.') :
      d ∉ t.major ++ dotted '.' [t.minor, t.patch] := by
    rw [List.mem_append, not_or]
    refine ⟨not_mem_of_isCanonicalNumber h.major hd, not_mem_dotted hdot hdot ?_⟩
    simpa using ⟨not_mem_of_isCanonicalNumber h.minor hd, not_mem_of_isCanonicalNumber h.patch hd⟩
  have hplus : '+' ∉ t.major ++ dotted '.' [t.minor, t.patch] ++ dotted '-' t.prerelease := by
    rw [List.mem_append, not_or]
    refine ⟨hnumber (by decide) (by decide), not_mem_dotted (by decide) (by decide) ?_⟩
    exact fun token htoken =>
      not_mem_of_isLooseToken (isLooseToken_of_isStrictToken (h.prerelease token htoken)) (by decide)
  have hchars : t.chars =
      t.major ++ dotted '.' [t.minor, t.patch] ++ dotted '-' t.prerelease ++ dotted '+' t.build := by
    simp [chars, dotted]
  have hdot (ds : List Char) (hds : isCanonicalNumber ds = true) : '.' ∉ ds :=
    not_mem_of_isCanonicalNumber hds (by decide)
  have hcore : readTokens? isCanonicalNumber (t.major ++ dotted '.' [t.minor, t.patch]) =
      some [t.major, t.minor, t.patch] :=
    readTokens?_dotted hdot (by simp [h.major, h.minor, h.patch])
  have hpre := readPrerelease?_core (hnumber (d := '-') (by decide) (by decide)) h.prerelease
  rw [hchars, ofChars?, readBuild?_dotted hplus h.build]
  simp only [Option.bind_eq_bind, Option.bind_some, hpre, hcore]

/-! ## Read by the loose grammar -/

/-- The pieces as the parts of a partial version. -/
def partialText (t : StrictText) : PartialText where
  major := .digits t.major
  minor := some (.digits t.minor)
  patch := some (.digits t.patch)
  prerelease := t.prerelease
  build := t.build

variable {t : StrictText}

/-- The text of the pieces begins with a digit. -/
theorem HasTokens.chars_eq_cons (h : t.HasTokens) :
    ∃ d rest, t.chars = d :: rest ∧ isDecimalDigit d = true := by
  have hmajor := isDigitToken_of_isCanonicalNumber h.major
  cases hds : t.major with
  | nil =>
    rw [hds] at hmajor
    cases hmajor
  | cons d ds =>
    rw [hds] at hmajor
    simp only [isDigitToken, List.all_cons, Bool.and_eq_true] at hmajor
    refine ⟨d, ds ++ ('.' :: t.minor ++ ('.' :: t.patch ++
      (dotted '-' t.prerelease ++ dotted '+' t.build))), ?_, hmajor.2.1⟩
    simp [chars, hds]

theorem HasTokens.ofParts?_chars (h : t.HasTokens) :
    PartialText.ofParts? t.chars = some t.partialText := by
  have hdigits {ds : List Char} := @isDigitToken_of_isCanonicalNumber ds
  exact PartialText.ofParts?_dotted (hdigits h.major) (hdigits h.minor) (hdigits h.patch)
    (fun token htoken => isLooseToken_of_isStrictToken (h.prerelease token htoken)) h.build

/-- The `v` in front is one of the lead characters. -/
theorem HasTokens.ofChars?_of_dropV (h : t.HasTokens) {cs : List Char} (hcs : dropV cs = t.chars) :
    PartialText.ofChars? cs = some t.partialText := by
  obtain ⟨d, rest, hchars, hd⟩ := h.chars_eq_cons
  have hlead : t.chars.dropWhile PartialText.isLead = t.chars := by
    simp [hchars, isLead_eq_false_of_isDecimalDigit hd]
  have hdrop : cs.dropWhile PartialText.isLead = t.chars := by
    unfold dropV at hcs
    split at hcs
    · rw [List.dropWhile_cons, if_pos (by decide), hcs, hlead]
    · rw [hcs, hlead]
  rw [PartialText.ofChars?, hdrop, h.ofParts?_chars]

/-- What the pieces denote is the same version in both grammars, up to the build. -/
theorem value?_partialText {w : VersionRecord} (h : t.value? = some w) :
    ∃ v, t.partialText.value? = some (.full v) ∧ v.record.major = w.major ∧
      v.record.minor = w.minor ∧ v.record.patch = w.patch ∧
      v.record.prerelease = w.prerelease := by
  unfold value? at h
  obtain ⟨major, hmajor, h⟩ := Option.bind_eq_some_iff.1 h
  obtain ⟨minor, hminor, h⟩ := Option.bind_eq_some_iff.1 h
  obtain ⟨patch, hpatch, h⟩ := Option.bind_eq_some_iff.1 h
  cases h
  refine ⟨{ major := major, minor := minor, patch := patch,
            prerelease := t.prerelease.map Identifier.ofToken,
            build := t.build.map Identifier.ofToken }, ?_, rfl, rfl, rfl, ?_⟩
  · simp only [PartialText.value?, partialText, Part.optionalValue?, Part.value?, hmajor, hminor,
      hpatch, Option.map_some]
    rfl
  · simp only [Version.record, List.map_map]
    exact List.map_congr_left fun token _ => Identifier.prereleaseId_ofToken token

end StrictText

/-! ## Versions -/

theorem VersionRecord.parse_eq_ok {text : String} {w : VersionRecord} (h : parse text = .ok w) :
    ∃ t, StrictText.ofChars? (StrictText.dropV (trim text.toList)) = some t ∧
      t.value? = some w := by
  unfold parse at h
  split at h
  · cases h
  · next t ht =>
    split at h
    · cases h
    · next v hv =>
      cases h
      exact ⟨t, ht, hv⟩

namespace Version

/-- **What the strict grammar takes, the loose grammar reads the same way.** A strict version that
    is not too long is a loose one, with the same numbers and the same prerelease, and every
    prerelease identifier has the same kind. -/
theorem parseLoose?_of_strict {text : String} {w : VersionRecord}
    (hlength : byteLength text.toList ≤ maxLooseBytes) (h : VersionRecord.parse text = .ok w) :
    ∃ v, parseLoose? text = some v ∧ v.record.major = w.major ∧ v.record.minor = w.minor ∧
      v.record.patch = w.patch ∧ v.record.prerelease = w.prerelease := by
  obtain ⟨t, ht, hvalue⟩ := VersionRecord.parse_eq_ok h
  obtain ⟨hchars, htokens⟩ := StrictText.chars_of_ofChars? ht
  obtain ⟨v, hv, hrecord⟩ := StrictText.value?_partialText hvalue
  refine ⟨v, ?_, hrecord⟩
  rw [parseLoose?, if_neg (Nat.not_lt.2 hlength), htokens.ofChars?_of_dropV hchars.symm,
    Option.bind_some, hv]

/-- A strict version with identifiers that begin with hyphens, a number that is no word, and a digit
    of another script. -/
def mixedText : String := " v1.2.3--a.0.-.18446744073709551616.2\u0663-x+01 "

/-- What it denotes. -/
def mixedRecord : VersionRecord where
  major := 1
  minor := 2
  patch := 3
  prerelease := [.text "-a", .int 0, .text "-", .text "18446744073709551616", .text "2\u0663-x"]
  build := ["01"]

/-- That text is short enough, and the loose grammar reads it the same way. -/
theorem mixedText_is_loose :
    byteLength mixedText.toList ≤ maxLooseBytes ∧
      VersionRecord.parse mixedText = .ok mixedRecord ∧
      ∃ v, parseLoose? mixedText = some v ∧ v.record.major = mixedRecord.major ∧
        v.record.minor = mixedRecord.minor ∧ v.record.patch = mixedRecord.patch ∧
        v.record.prerelease = mixedRecord.prerelease := by
  have hlength : byteLength mixedText.toList ≤ maxLooseBytes := by decide
  have hparse : VersionRecord.parse mixedText = .ok mixedRecord := rfl
  exact ⟨hlength, hparse, parseLoose?_of_strict hlength hparse⟩

end Version

end DepSpec
