import DepSpec.Proofs.Version.BuildText

set_option autoImplicit false

/-! # Which texts are semantic versions

The grammar of semantic versions asks for ASCII digits, and the strict reader for decimal digits of
any script. That is all they differ in: the pieces that the reader takes are those of the grammar if
every digit in them is an ASCII digit (`StrictText.isCanonical_iff`). So the reader tells semantic
versions, those with numbers that fit no word and all other texts apart exactly where it takes no
version with another digit for one (`VersionRecord.semantic_versions_are_told_iff`). In particular it
is right about every semantic version. -/

namespace DepSpec

open Text

/-! ## Characters of identifiers -/

theorem toNat_lt_of_isIdentifierChar {c : Char} (h : isIdentifierChar c = true) : c.toNat < 128 := by
  unfold isIdentifierChar Char.isAlphanum Char.isAlpha Char.isUpper Char.isLower Char.isDigit at h
  simp only [Bool.or_eq_true, Bool.and_eq_true, decide_eq_true_eq, beq_iff_eq, ge_iff_le] at h
  rcases h with ((⟨-, h⟩ | ⟨-, h⟩) | ⟨-, h⟩) | rfl
  · exact Nat.lt_of_le_of_lt h (by decide)
  · exact Nat.lt_of_le_of_lt h (by decide)
  · exact Nat.lt_of_le_of_lt h (by decide)
  · decide

/-- The digits among the characters of an identifier are ASCII digits. -/
theorem isDigit_of_isIdentifierChar {c : Char} (h : isIdentifierChar c = true)
    (hdigit : isDecimalDigit c = true) : c.isDigit = true := by
  have hascii : ((List.range 128).all fun n =>
      !isDecimalDigit (Char.ofNat n) || (Char.ofNat n).isDigit) = true := by decide +kernel
  have hc := List.all_eq_true.1 hascii c.toNat (List.mem_range.2 (toNat_lt_of_isIdentifierChar h))
  rw [Char.ofNat_toNat, hdigit] at hc
  exact hc

theorem isIdentifierChar_of_isDigit {c : Char} (h : c.isDigit = true) :
    isIdentifierChar c = true := by
  simp [isIdentifierChar, Char.isAlphanum, h]

/-- If the character is a digit of any script, it is one of ASCII. -/
def IsPlainDigit (c : Char) : Prop := isDecimalDigit c = true → c.isDigit = true

instance (c : Char) : Decidable (IsPlainDigit c) :=
  inferInstanceAs (Decidable (isDecimalDigit c = true → c.isDigit = true))

/-- What stands behind the digits of a token begins with no digit. -/
theorem behind_digits {token rest : List Char} {d : Char}
    (h : token.dropWhile isDecimalDigit = d :: rest) :
    d.isDigit = false ∧ ∀ c ∈ d :: rest, c ∈ token := by
  have hfirst : isDecimalDigit d = false := by
    have hhead := List.head?_dropWhile_not isDecimalDigit token
    rwa [h] at hhead
  refine ⟨?_, fun c hc => (List.dropWhile_suffix isDecimalDigit).subset (h ▸ hc)⟩
  cases hdigit : d.isDigit with
  | false => rfl
  | true =>
    rw [isDecimalDigit_of_isDigit hdigit] at hfirst
    cases hfirst

namespace StrictText

/-! ## Identifiers -/

theorem isNumeric_iff {ds : List Char} :
    IsNumeric ds ↔ isCanonicalNumber ds = true ∧ ∀ c ∈ ds, IsPlainDigit c := by
  constructor
  · rintro ⟨hne, hdigits, hzero⟩
    refine ⟨?_, fun c hc _ => hdigits c hc⟩
    obtain ⟨d, rest, rfl⟩ := List.exists_cons_of_ne_nil hne
    by_cases hd : d = '0'
    · subst hd
      rw [hzero rfl]
      rfl
    · exact isCanonicalNumber_of_ne_zero hdigits hd
  · rintro ⟨hnumber, hplain⟩
    have hdigits := isDigitToken_of_isCanonicalNumber hnumber
    rw [isDigitToken, Bool.and_eq_true] at hdigits
    refine ⟨?_, fun c hc => hplain c hc (List.all_eq_true.1 hdigits.2 c hc), ?_⟩
    · rintro rfl
      cases hnumber
    · intro hhead
      obtain ⟨rest, rfl⟩ := List.head?_eq_some_iff.1 hhead
      -- a zero is below the digits that may stand in front of others
      have hrest : rest = [] := by simpa [isCanonicalNumber] using hnumber
      rw [hrest]

theorem isAlphanumeric_iff {token : List Char} :
    IsAlphanumeric token ↔ isAlphanumericToken token = true ∧ ∀ c ∈ token, IsPlainDigit c := by
  constructor
  · rintro ⟨hchars, c, hc, hdigit⟩
    have hplain : ∀ d ∈ token, IsPlainDigit d :=
      fun d hd => isDigit_of_isIdentifierChar (hchars d hd)
    refine ⟨?_, hplain⟩
    unfold isAlphanumericToken
    split
    · next hnil =>
      -- all of them would be digits
      have hall := List.dropWhile_eq_nil_iff.1 hnil c hc
      rw [hplain c hc hall] at hdigit
      cases hdigit
    · next d rest hdrop =>
      obtain ⟨hfirst, hmem⟩ := behind_digits hdrop
      have hd := hchars d (hmem d List.mem_cons_self)
      rw [Bool.and_eq_true, List.all_eq_true]
      refine ⟨?_, fun e he => hchars e (hmem e (List.mem_cons_of_mem d he))⟩
      simpa [isIdentifierChar, Char.isAlphanum, hfirst, isTokenLetter] using hd
  · rintro ⟨htoken, hplain⟩
    have hloose : isLooseToken token = true := by rw [isLooseToken, htoken, Bool.or_true]
    refine ⟨?_, ?_⟩
    · intro c hc
      rcases isTokenChar_of_isLooseToken hloose c hc with hdigit | hchar
      · exact isIdentifierChar_of_isDigit (hplain c hc hdigit)
      · exact hchar
    · unfold isAlphanumericToken at htoken
      split at htoken
      · cases htoken
      · next d rest hdrop =>
        obtain ⟨hfirst, hmem⟩ := behind_digits hdrop
        exact ⟨d, hmem d List.mem_cons_self, hfirst⟩

theorem isBuild_iff {token : List Char} :
    IsBuild token ↔ isBuildToken token = true ∧ ∀ c ∈ token, IsPlainDigit c := by
  rw [isBuildToken, Bool.and_eq_true, List.all_eq_true, IsBuild]
  constructor
  · rintro ⟨hne, hchars⟩
    exact ⟨⟨by simpa using hne, hchars⟩, fun c hc => isDigit_of_isIdentifierChar (hchars c hc)⟩
  · rintro ⟨⟨hne, hchars⟩, -⟩
    exact ⟨by simpa using hne, hchars⟩

/-! ## Pieces -/

variable {t u : StrictText} {text : String}

theorem forall_mem_dotted_iff {p : Char → Prop} {lead : Char} (hlead : p lead) (hdot : p '.')
    {tokens : List (List Char)} :
    (∀ c ∈ dotted lead tokens, p c) ↔ ∀ token ∈ tokens, ∀ c ∈ token, p c := by
  induction tokens generalizing lead with
  | nil => simp [dotted]
  | cons token tokens ih =>
    simp only [dotted, List.forall_mem_append, List.forall_mem_cons, hlead, true_and, ih hdot]

/-- The characters of a text in pieces are those of the pieces and of the signs between them. -/
theorem forall_mem_chars_iff {p : Char → Prop} (hdot : p '.') (hhyphen : p '-') (hplus : p '+') :
    (∀ c ∈ t.chars, p c) ↔ (∀ c ∈ t.major, p c) ∧ (∀ c ∈ t.minor, p c) ∧ (∀ c ∈ t.patch, p c) ∧
      (∀ token ∈ t.prerelease, ∀ c ∈ token, p c) ∧ ∀ token ∈ t.build, ∀ c ∈ token, p c := by
  simp only [chars, List.forall_mem_append, List.forall_mem_cons, hdot, true_and,
    forall_mem_dotted_iff hhyphen hdot, forall_mem_dotted_iff hplus hdot, and_assoc]

/-- **The grammar allows the pieces that the reader takes, if their digits are ASCII digits.** -/
theorem isCanonical_iff : t.IsCanonical ↔ t.HasTokens ∧ ∀ c ∈ t.chars, IsPlainDigit c := by
  rw [forall_mem_chars_iff (by decide) (by decide) (by decide)]
  constructor
  · rintro ⟨hmajor, hminor, hpatch, hpre, hbuild⟩
    rw [isNumeric_iff] at hmajor hminor hpatch
    have hpre' (token) (htoken : token ∈ t.prerelease) :
        isStrictToken token = true ∧ ∀ c ∈ token, IsPlainDigit c := by
      rcases hpre token htoken with hnumeric | halphanumeric
      · obtain ⟨hnumber, hplain⟩ := isNumeric_iff.1 hnumeric
        exact ⟨by rw [isStrictToken, hnumber, Bool.true_or], hplain⟩
      · obtain ⟨hletters, hplain⟩ := isAlphanumeric_iff.1 halphanumeric
        exact ⟨by rw [isStrictToken, hletters, Bool.or_true], hplain⟩
    refine ⟨⟨hmajor.1, hminor.1, hpatch.1, fun token h => (hpre' token h).1, ?_⟩,
      hmajor.2, hminor.2, hpatch.2, fun token h => (hpre' token h).2, ?_⟩
    · exact fun token h => (isBuild_iff.1 (hbuild token h)).1
    · exact fun token h => (isBuild_iff.1 (hbuild token h)).2
  · rintro ⟨htokens, hmajor, hminor, hpatch, hpre, hbuild⟩
    refine ⟨isNumeric_iff.2 ⟨htokens.major, hmajor⟩, isNumeric_iff.2 ⟨htokens.minor, hminor⟩,
      isNumeric_iff.2 ⟨htokens.patch, hpatch⟩, ?_, ?_⟩
    · intro token htoken
      have hstrict := htokens.prerelease token htoken
      rw [isStrictToken, Bool.or_eq_true] at hstrict
      rcases hstrict with hnumber | hletters
      · exact Or.inl (isNumeric_iff.2 ⟨hnumber, hpre token htoken⟩)
      · exact Or.inr (isAlphanumeric_iff.2 ⟨hletters, hpre token htoken⟩)
    · exact fun token h => isBuild_iff.2 ⟨htokens.build token h, hbuild token h⟩

/-! ## Texts -/

/-- A semantic version of these pieces, blanks around it and a `v` in front aside. -/
structure Derives (t : StrictText) (text : String) : Prop where
  canonical : t.IsCanonical
  chars : t.chars = dropV (trim text.toList)

/-- The three numbers are words. -/
structure FitsWords (t : StrictText) : Prop where
  major : numeralValue t.major < 2 ^ 64
  minor : numeralValue t.minor < 2 ^ 64
  patch : numeralValue t.patch < 2 ^ 64

theorem derives_iff : t.Derives text ↔ t.Spells text ∧ ∀ c ∈ t.chars, IsPlainDigit c := by
  constructor
  · rintro ⟨hcanonical, hchars⟩
    obtain ⟨htokens, hplain⟩ := isCanonical_iff.1 hcanonical
    exact ⟨⟨htokens, hchars⟩, hplain⟩
  · rintro ⟨⟨htokens, hchars⟩, hplain⟩
    exact ⟨isCanonical_iff.2 ⟨htokens, hplain⟩, hchars⟩

theorem Spells.ofChars? (h : t.Spells text) : ofChars? (dropV (trim text.toList)) = some t := by
  rw [← h.chars, h.tokens.ofChars?_chars]

/-- A text is read in one way only. -/
theorem Spells.eq (h : t.Spells text) (h' : u.Spells text) : t = u :=
  Option.some.inj (h.ofChars?.symm.trans h'.ofChars?)

theorem Derives.eq (h : t.Derives text) (h' : u.Derives text) : t = u :=
  (derives_iff.1 h).1.eq (derives_iff.1 h').1

/-! ## Numbers -/

theorem exists_readWord?_iff {ds : List Char} (h : IsNumeric ds) :
    (∃ n, readWord? ds = some n) ↔ numeralValue ds < 2 ^ 64 := by
  obtain ⟨hne, hdigits, -⟩ := h
  have hall : ds.all Char.isDigit = true := List.all_eq_true.2 hdigits
  constructor
  · rintro ⟨n, hn⟩
    obtain ⟨hfits, -⟩ := readWord?_eq_some hn
    simpa [fitsWord, hall] using hfits
  · intro hlt
    obtain ⟨n, hn, -⟩ := readWord?_of_fitsWord hne (by simpa [fitsWord, hall] using hlt)
    exact ⟨n, hn⟩

/-- A semantic version has a value if its numbers are words. -/
theorem IsCanonical.exists_value?_iff (h : t.IsCanonical) :
    (∃ w, t.value? = some w) ↔ t.FitsWords := by
  constructor
  · rintro ⟨w, hw⟩
    obtain ⟨major, hmajor, hw⟩ := Option.bind_eq_some_iff.1 hw
    obtain ⟨minor, hminor, hw⟩ := Option.bind_eq_some_iff.1 hw
    obtain ⟨patch, hpatch, -⟩ := Option.bind_eq_some_iff.1 hw
    exact ⟨(exists_readWord?_iff h.major).1 ⟨major, hmajor⟩,
      (exists_readWord?_iff h.minor).1 ⟨minor, hminor⟩,
      (exists_readWord?_iff h.patch).1 ⟨patch, hpatch⟩⟩
  · rintro ⟨hmajor, hminor, hpatch⟩
    obtain ⟨major, hmajor⟩ := (exists_readWord?_iff h.major).2 hmajor
    obtain ⟨minor, hminor⟩ := (exists_readWord?_iff h.minor).2 hminor
    obtain ⟨patch, hpatch⟩ := (exists_readWord?_iff h.patch).2 hpatch
    simp [value?, hmajor, hminor, hpatch]

end StrictText

/-! ## What the reader tells -/

namespace VersionRecord

open StrictText

variable {t : StrictText} {text : String}

/-- The reader tells semantic versions from those with numbers that are no words, and both from all
    other texts. -/
structure TellsApart (text : String) : Prop where
  ok : (∃ w, parse text = .ok w) ↔ ∃ t : StrictText, t.Derives text ∧ t.FitsWords
  outOfRange : parse text = .error (.outOfRange text) ↔
    ∃ t : StrictText, t.Derives text ∧ ¬ t.FitsWords
  malformed : parse text = .error (.malformed text) ↔ ¬ ∃ t : StrictText, t.Derives text

theorem parse_of_value? (h : t.Spells text) {w : VersionRecord} (hw : t.value? = some w) :
    parse text = .ok w := by
  simp only [parse, h.ofChars?, hw]

theorem parse_of_value?_eq_none (h : t.Spells text) (hw : t.value? = none) :
    parse text = .error (.outOfRange text) := by
  simp only [parse, h.ofChars?, hw]

theorem parse_eq_malformed_iff :
    parse text = .error (.malformed text) ↔ ¬ ∃ t : StrictText, t.Spells text := by
  constructor
  · rintro hparse ⟨t, ht⟩
    cases hw : t.value? with
    | none =>
      rw [parse_of_value?_eq_none ht hw] at hparse
      cases hparse
    | some w =>
      rw [parse_of_value? ht hw] at hparse
      cases hparse
  · intro hnone
    unfold parse
    split
    · rfl
    · next t ht =>
      obtain ⟨hchars, htokens⟩ := chars_of_ofChars? ht
      exact absurd ⟨t, htokens, hchars⟩ hnone

/-- About a semantic version the reader is right. -/
theorem tellsApart_of_derives (h : t.Derives text) : TellsApart text := by
  obtain ⟨hspells, -⟩ := derives_iff.1 h
  have hvalue := h.canonical.exists_value?_iff
  -- the pieces of the text are the ones at hand
  have hpieces {P : StrictText → Prop} : (∃ u : StrictText, u.Derives text ∧ P u) ↔ P t :=
    ⟨fun ⟨u, hu, hP⟩ => hu.eq h ▸ hP, fun hP => ⟨t, h, hP⟩⟩
  cases hw : t.value? with
  | some w =>
    rw [hw] at hvalue
    have hparse := parse_of_value? hspells hw
    have hfits : t.FitsWords := hvalue.1 ⟨w, rfl⟩
    refine ⟨?_, ?_, ?_⟩
    · rw [hpieces]
      exact iff_of_true ⟨w, hparse⟩ hfits
    · rw [hpieces, hparse]
      exact iff_of_false nofun (not_not_intro hfits)
    · rw [hparse]
      exact iff_of_false nofun (not_not_intro ⟨t, h⟩)
  | none =>
    rw [hw] at hvalue
    have hparse := parse_of_value?_eq_none hspells hw
    have hfits : ¬ t.FitsWords := fun hfits => by
      obtain ⟨w, hw⟩ := hvalue.2 hfits
      cases hw
    refine ⟨?_, ?_, ?_⟩
    · rw [hpieces, hparse]
      exact iff_of_false nofun hfits
    · rw [hpieces, hparse]
      exact iff_of_true rfl hfits
    · rw [hparse]
      exact iff_of_false nofun (not_not_intro ⟨t, h⟩)

/-- **The reader takes the semantic versions, where it takes no other digits for ASCII digits.** A
    text is answered with a version exactly if it is a semantic version whose numbers are words, with
    an error about the numbers exactly if it is one whose numbers are not all words, and with an error
    about its form otherwise. This fails only if the text reads as a version with a decimal digit
    outside ASCII. -/
theorem semantic_versions_are_told_iff (text : String) :
    TellsApart text ↔
      ∀ t : StrictText, t.Spells text → ∀ c ∈ t.chars, isDecimalDigit c = true → c.isDigit = true := by
  constructor
  · intro htells t ht
    have hnot := parse_eq_malformed_iff.not_left.2 ⟨t, ht⟩
    obtain ⟨u, hu⟩ := not_not.1 (htells.malformed.not.1 hnot)
    obtain ⟨hspells, hplain⟩ := derives_iff.1 hu
    rw [ht.eq hspells]
    exact hplain
  · intro hplain
    by_cases hread : ∃ t : StrictText, t.Spells text
    · obtain ⟨t, ht⟩ := hread
      exact tellsApart_of_derives (derives_iff.2 ⟨ht, hplain t ht⟩)
    · have hparse := parse_eq_malformed_iff.2 hread
      have hnone : ¬ ∃ t : StrictText, t.Derives text :=
        fun ⟨t, ht⟩ => hread ⟨t, (derives_iff.1 ht).1⟩
      refine ⟨?_, ?_, iff_of_true hparse hnone⟩
      · rw [hparse]
        exact iff_of_false nofun fun ⟨t, ht, _⟩ => hnone ⟨t, ht⟩
      · rw [hparse]
        exact iff_of_false nofun fun ⟨t, ht, _⟩ => hnone ⟨t, ht⟩

/-- A digit of another script: two texts that are no semantic versions. One is read as a version, the
    other is said to have a number that is no word. -/
theorem foreign_digits_are_taken :
    (∃ w, parse "1.2.3-1\u0663" = .ok w) ∧ (¬ ∃ t : StrictText, t.Derives "1.2.3-1\u0663") ∧
      parse "1\u0663.0.0" = .error (.outOfRange "1\u0663.0.0") ∧
      ¬ ∃ t : StrictText, t.Derives "1\u0663.0.0" := by
  have hforeign {text : String} (hmem : '\u0663' ∈ dropV (trim text.toList)) :
      ¬ ∃ t : StrictText, t.Derives text := by
    rintro ⟨t, ht⟩
    have hplain := (derives_iff.1 ht).2 '\u0663' (ht.chars ▸ hmem)
    exact absurd (hplain (by decide)) (by decide)
  exact ⟨⟨_, rfl⟩, hforeign (by decide), rfl, hforeign (by decide)⟩

end VersionRecord

end DepSpec
