import DepSpec.Proofs.Range.LooseVersions
import DepSpec.Proofs.Version.RecordOrder

set_option autoImplicit false

/-! # The build of a version

The build of a version is what stands behind the first plus sign of its text, cut at the dots
(`shownBuild`). The strict grammar keeps these identifiers as they are (`build_of_parse`). The loose
grammar gives every one a kind first: a numeral that fits a word becomes that word, and the record
shows the word again. A numeral is written back as it was unless it begins with a zero that is not
all of it (`writeNat_numeralValue`), so that the record shows every identifier as it was but for the
padded ones (`text_ofToken_eq_iff`). -/

namespace DepSpec

open Text StrictText

/-! ## Numerals -/

/-- A numeral that begins with no zero has no leading zeros. -/
theorem isCanonicalNumber_of_ne_zero {d : Char} {ds : List Char}
    (hdigits : ∀ c ∈ d :: ds, c.isDigit = true) (hzero : d ≠ '0') :
    isCanonicalNumber (d :: ds) = true := by
  obtain ⟨hd, hrest⟩ := List.forall_mem_cons.1 hdigits
  have hne : d.toNat ≠ 48 := by
    intro h
    exact hzero (by rw [← Char.ofNat_toNat d, h])
  obtain ⟨hlow, hhigh⟩ := toNat_of_isDigit hd
  have hlow' : '1' ≤ d := show 49 ≤ d.toNat by omega
  have hhigh' : d ≤ '9' := hhigh
  have hrest' : ds.all isDecimalDigit = true :=
    List.all_eq_true.2 fun c hc => isDecimalDigit_of_isDigit (hrest c hc)
  simp [isCanonicalNumber, hlow', hhigh', hrest']

theorem isCanonicalNumber_writeNat (n : Nat) : isCanonicalNumber (writeNat n) = true := by
  have hdigits : ∀ c ∈ writeNat n, c.isDigit = true := fun _ => isDigit_of_mem_writeNat
  cases hds : writeNat n with
  | nil => exact absurd hds (writeNat_ne_nil n)
  | cons d ds =>
    rw [hds] at hdigits
    by_cases hzero : d = '0'
    · subst hzero
      rw [eq_nil_of_writeNat_eq_zero_cons hds]
      rfl
    · exact isCanonicalNumber_of_ne_zero hdigits hzero

/-- A numeral without leading zeros is written back from its value. -/
theorem writeNat_numeralValue {ds : List Char} (h : isCanonicalNumber ds = true)
    (hdigits : ∀ c ∈ ds, c.isDigit = true) : writeNat (numeralValue ds) = ds := by
  have hwritten : ∀ c ∈ writeNat (numeralValue ds), c.isDigit = true :=
    fun _ => isDigit_of_mem_writeNat
  have hvalue : numeralValue (writeNat (numeralValue ds)) = numeralValue ds :=
    Nat.ofDigitChars_ten_toDigits
  have hstrict {token : List Char} (htoken : isCanonicalNumber token = true) :
      isStrictToken token = true := by
    rw [isStrictToken, htoken, Bool.true_or]
  -- Both are identifiers of the strict grammar, and the precedence tells those apart.
  refine eq_of_compareTokens (hstrict (isCanonicalNumber_writeNat _)) (hstrict h) ?_
  rw [compareTokens, List.all_eq_true.2 hwritten, List.all_eq_true.2 hdigits]
  exact Nat.compare_eq_eq.2 hvalue

/-- A numeral that fits a word and begins with a zero in front of other digits. -/
def isPadded (token : List Char) : Bool :=
  fitsWord token && token.head? == some '0' && decide (1 < token.length)

theorem writeNat_numeralValue_ne {token : List Char} (h : isPadded token = true) :
    writeNat (numeralValue token) ≠ token := by
  simp only [isPadded, Bool.and_eq_true, beq_iff_eq, decide_eq_true_eq] at h
  obtain ⟨⟨-, hhead⟩, hlength⟩ := h
  obtain ⟨rest, rfl⟩ := List.head?_eq_some_iff.1 hhead
  intro heq
  rw [eq_nil_of_writeNat_eq_zero_cons heq] at hlength
  exact absurd hlength (by decide)

theorem isCanonicalNumber_of_isPadded_eq_false {token : List Char} (hne : token ≠ [])
    (hfits : fitsWord token = true) (h : isPadded token = false) :
    isCanonicalNumber token = true := by
  have hdigits : ∀ c ∈ token, c.isDigit = true :=
    List.all_eq_true.1 (Bool.and_eq_true_iff.1 hfits).1
  cases token with
  | nil => exact absurd rfl hne
  | cons d ds =>
    by_cases hzero : d = '0'
    · subst hzero
      have hlength : ds = [] := by simpa [isPadded, hfits] using h
      rw [hlength]
      rfl
    · exact isCanonicalNumber_of_ne_zero hdigits hzero

/-! ## Identifiers -/

/-- What the record shows of a token: the token, but for the zeros in front of a numeral. -/
def unpadded (token : List Char) : List Char :=
  if isPadded token then writeNat (numeralValue token) else token

theorem unpadded_eq_self_iff {token : List Char} : unpadded token = token ↔ isPadded token = false := by
  unfold unpadded
  cases h : isPadded token with
  | true => simpa using writeNat_numeralValue_ne h
  | false => simp

theorem Identifier.text_ofToken {token : List Char} (hne : token ≠ []) :
    (ofToken token).text = String.ofList (unpadded token) := by
  unfold ofToken
  cases hword : readWord? token with
  | some n =>
    obtain ⟨hfits, hn⟩ := readWord?_eq_some hword
    have hwritten : writeWord n = unpadded token := by
      rw [writeWord, hn]
      cases h : isPadded token with
      | true => rw [unpadded, h, if_pos rfl]
      | false =>
        have hdigits := List.all_eq_true.1 (Bool.and_eq_true_iff.1 hfits).1
        rw [unpadded_eq_self_iff.2 h]
        exact writeNat_numeralValue (isCanonicalNumber_of_isPadded_eq_false hne hfits h) hdigits
    rw [text, hwritten]
  | none =>
    have hpadded : isPadded token = false := by
      by_contra h
      rw [Bool.not_eq_false, isPadded, Bool.and_eq_true, Bool.and_eq_true] at h
      obtain ⟨n, hn, -⟩ := readWord?_of_fitsWord hne h.1.1
      rw [hword] at hn
      cases hn
    rw [text, unpadded_eq_self_iff.2 hpadded]

/-! ## The identifiers that a text shows -/

/-- The pieces between the dots behind the first plus sign. -/
def buildTokens (cs : List Char) : List (List Char) :=
  match cut? (· == '+') cs with
  | none => []
  | some (_, build) => splitDots build

theorem buildTokens_append {front : List Char} (h : '+' ∉ front) (cs : List Char) :
    buildTokens (front ++ cs) = buildTokens cs := by
  rw [buildTokens, cut?_append (beq_eq_false_of_not_mem h), buildTokens]
  cases cut? (· == '+') cs <;> rfl

theorem build_of_readBuild? {cs front : List Char} {build : List (List Char)}
    (h : readBuild? cs = some (front, build)) : build = buildTokens cs := by
  cases hcut : cut? (· == '+') cs with
  | none =>
    rw [readBuild?, hcut] at h
    cases h
    rw [buildTokens, hcut]
  | some parts =>
    obtain ⟨before, after⟩ := parts
    rw [readBuild?, hcut] at h
    obtain ⟨tokens, htokens, heq⟩ := Option.map_eq_some_iff.1 h
    cases heq
    rw [buildTokens, hcut]
    unfold readTokens? at htokens
    split at htokens <;> cases htokens
    rfl

theorem build_of_readSuffix? {cs : List Char} {prerelease build : List (List Char)}
    (h : readSuffix? cs = some (prerelease, build)) : build = buildTokens cs := by
  unfold readSuffix? at h
  obtain ⟨⟨front, build'⟩, hbuild, h⟩ := Option.bind_eq_some_iff.1 h
  obtain ⟨prerelease', -, h⟩ := Option.bind_eq_some_iff.1 h
  cases h
  exact build_of_readBuild? hbuild

/-- A part holds no plus sign, so that the build stands behind it. -/
theorem buildTokens_of_read? {cs rest : List Char} {part : Part}
    (h : Part.read? cs = some (part, rest)) : buildTokens cs = buildTokens rest := by
  obtain ⟨front, rfl, hfront⟩ := Part.read?_spec h
  exact buildTokens_append (fun hmem => absurd (hfront '+' hmem) (by decide)) rest

namespace PartialText

theorem build_of_readPatch? {cs : List Char} {part : Part} {prerelease build : List (List Char)}
    (h : readPatch? cs = some (part, prerelease, build)) : build = buildTokens cs := by
  unfold readPatch? at h
  obtain ⟨⟨read, rest⟩, hread, h⟩ := Option.bind_eq_some_iff.1 h
  rw [buildTokens_of_read? hread]
  dsimp only at h
  split at h
  · next hsuffix =>
    cases h
    exact build_of_readSuffix? hsuffix
  · cases h
  · split at h
    · next last _ hlast =>
      obtain ⟨suffix, hsuffix, heq⟩ := Option.map_eq_some_iff.1 h
      cases heq
      -- The digit that the number gives up is no plus sign.
      have hdigit := (Part.eq_append_of_read? hread).2 last (List.mem_of_getLast? hlast)
      have hplus : '+' ∉ [last] := by
        rw [List.mem_singleton]
        exact (ne_of_isDecimalDigit hdigit (by decide)).symm
      rw [build_of_readSuffix? hsuffix]
      exact buildTokens_append hplus rest
    · cases h

theorem build_of_ofParts? {cs : List Char} {t : PartialText} (h : ofParts? cs = some t) :
    t.build = buildTokens cs := by
  have hdot (rest : List Char) : buildTokens ('.' :: rest) = buildTokens rest :=
    @buildTokens_append ['.'] (by decide) rest
  unfold ofParts? at h
  obtain ⟨⟨major, rest⟩, hmajor, h⟩ := Option.bind_eq_some_iff.1 h
  rw [buildTokens_of_read? hmajor]
  dsimp only at h
  split at h
  · cases h
    rfl
  · obtain ⟨⟨minor, rest⟩, hminor, h⟩ := Option.bind_eq_some_iff.1 h
    rw [hdot, buildTokens_of_read? hminor]
    dsimp only at h
    split at h
    · cases h
      rfl
    · obtain ⟨⟨patch, prerelease, build⟩, hpatch, h⟩ := Option.bind_eq_some_iff.1 h
      cases h
      rw [hdot]
      exact build_of_readPatch? hpatch
    · cases h
  · cases h

end PartialText

/-! ## The build of a version -/

/-- The build identifiers in the text of a version: what stands behind its first plus sign, without
    the blanks at the end, cut at the dots. -/
def shownBuild (text : String) : List (List Char) :=
  match cut? (· == '+') text.toList with
  | none => []
  | some (_, build) => splitDots (trimEnd build)

/-- The blanks around a text make no difference. -/
theorem shownBuild_eq (text : String) : shownBuild text = buildTokens (trim text.toList) := by
  obtain ⟨front, back, hsplit, hfront, hback⟩ := trim_spec text.toList
  have hfront' : ∀ c ∈ front, (c == '+') = false :=
    beq_eq_false_of_not_mem fun hmem => absurd (hfront '+' hmem) (by decide)
  have hback' : ∀ c ∈ back, (c == '+') = false :=
    beq_eq_false_of_not_mem fun hmem => absurd (hback '+' hmem) (by decide)
  unfold shownBuild buildTokens
  cases hcut : cut? (· == '+') (trim text.toList) with
  | none =>
    have hnone : cut? (· == '+') text.toList = none := by
      rw [hsplit]
      refine cut?_of_not_mem fun c hc => ?_
      rcases List.mem_append.1 hc with hc | hc
      · exact (List.mem_append.1 hc).elim (hfront' c) (not_mem_of_cut?_eq_none hcut c)
      · exact hback' c hc
    rw [hnone]
  | some parts =>
    obtain ⟨before, build⟩ := parts
    obtain ⟨plus, hplus, htrim, hbefore⟩ := cut?_eq_some hcut
    have hsome : cut? (· == '+') text.toList = some (front ++ before, build ++ back) := by
      rw [hsplit, htrim, List.append_assoc, List.append_assoc, List.cons_append, ← List.append_assoc]
      exact cut?_piece (fun c hc => (List.mem_append.1 hc).elim (hfront' c) (hbefore c)) hplus _
    have hend : trimEnd build = build := by
      have htrimmed := trimEnd_trim text.toList
      rw [htrim, List.append_cons] at htrimmed
      exact trimEnd_of_append htrimmed
    rw [hsome]
    dsimp only
    rw [trimEnd_append_blanks build hback, hend]

/-- The record of a loose version shows the identifiers of its text without padding. -/
theorem Version.build_of_parseLoose? {text : String} {v : Version} (h : parseLoose? text = some v) :
    v.record.build = (shownBuild text).map fun token => String.ofList (unpadded token) := by
  obtain ⟨lead, body, t, htrim, hlead, -, ht, hvalue⟩ := parseLoose?_eq_some h
  have hplus : '+' ∉ lead := fun hmem => absurd (hlead '+' hmem) (by decide)
  have hne : ∀ token ∈ t.build, token ≠ [] := by
    rintro token htoken rfl
    exact absurd ((PartialText.hasTokens_of_ofParts? ht).build [] htoken) (by decide)
  rw [shownBuild_eq, htrim, buildTokens_append hplus, ← PartialText.build_of_ofParts? ht, record,
    (PartialText.identifiers_of_value? hvalue).2, List.map_map]
  exact List.map_congr_left fun token htoken => Identifier.text_ofToken (hne token htoken)

/-- The record of a strict version shows them as they are. -/
theorem VersionRecord.build_of_parse {text : String} {w : VersionRecord} (h : parse text = .ok w) :
    w.build = (shownBuild text).map String.ofList := by
  obtain ⟨t, ht, hvalue⟩ := parse_eq_ok h
  have hbuild : t.build = buildTokens (dropV (trim text.toList)) := by
    unfold ofChars? at ht
    obtain ⟨⟨front, build⟩, hread, ht⟩ := Option.bind_eq_some_iff.1 ht
    obtain ⟨⟨core, prerelease⟩, -, ht⟩ := Option.bind_eq_some_iff.1 ht
    obtain ⟨numbers, -, ht⟩ := Option.bind_eq_some_iff.1 ht
    split at ht
    · cases ht
      exact build_of_readBuild? hread
    · cases ht
  have hdrop (cs : List Char) : buildTokens (dropV cs) = buildTokens cs := by
    unfold dropV
    split
    · exact (@buildTokens_append ['v'] (by decide) _).symm
    · rfl
  unfold value? at hvalue
  obtain ⟨major, -, hvalue⟩ := Option.bind_eq_some_iff.1 hvalue
  obtain ⟨minor, -, hvalue⟩ := Option.bind_eq_some_iff.1 hvalue
  obtain ⟨patch, -, hvalue⟩ := Option.bind_eq_some_iff.1 hvalue
  cases hvalue
  rw [shownBuild_eq, ← hdrop, ← hbuild]

end DepSpec
