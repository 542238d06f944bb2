import DepSpec.Proofs.Version.Characters

set_option autoImplicit false

/-! # The text of versions

A version that the loose grammar gives is read back from the text of its record, with the kinds of
its identifiers. Two facts make this work. An identifier came from a token of its class, so that it
is a word or its token is none (`Identifier.IsFrom`), and the text of either is such a token again.
And the text is put together from tokens that hold neither dots nor plus signs, so that it is cut
where it was joined (`splitDots_dotted`). -/

namespace DepSpec

open Text

/-! ## Identifiers -/

theorem isDigitToken_of_isDigit {ds : List Char} (hne : ds ≠ [])
    (hdigits : ∀ c ∈ ds, c.isDigit = true) : isDigitToken ds = true := by
  have hall : ds.all isDecimalDigit = true :=
    List.all_eq_true.2 fun c hc => isDecimalDigit_of_isDigit (hdigits c hc)
  rw [isDigitToken, hall, List.isEmpty_eq_false_iff.2 hne]
  rfl

theorem isDigitToken_writeWord (n : UInt64) : isDigitToken (writeWord n) = true :=
  isDigitToken_of_isDigit (writeNat_ne_nil n.toNat) fun _ => isDigit_of_mem_writeWord

theorem isLooseToken_writeWord (n : UInt64) : isLooseToken (writeWord n) = true := by
  simp [isLooseToken, isDigitToken_writeWord]

theorem isBuildToken_writeWord (n : UInt64) : isBuildToken (writeWord n) = true := by
  have hchars : (writeWord n).all isIdentifierChar = true := by
    rw [List.all_eq_true]
    intro c hc
    have hdigit : c.isDigit = true := isDigit_of_mem_writeWord hc
    simp [isIdentifierChar, Char.isAlphanum, hdigit]
  have hne : (writeWord n).isEmpty = false := by
    simp [writeWord, writeNat_ne_nil]
  rw [isBuildToken, hchars, hne]
  rfl

namespace Identifier

/-- An identifier that was made of a token of the class. -/
def IsFrom (isToken : List Char → Bool) (id : Identifier) : Prop :=
  ∃ token, isToken token = true ∧ ofToken token = id

variable {isToken : List Char → Bool} {id : Identifier}

/-- Such an identifier is a word, or keeps its token because that is none. -/
theorem IsFrom.eq (h : id.IsFrom isToken) :
    (∃ n, id = .numeric n) ∨
      ∃ s, id = .alphanumeric s ∧ isToken s.toList = true ∧ readWord? s.toList = none := by
  obtain ⟨token, htoken, rfl⟩ := h
  unfold ofToken
  split
  · next n hn => exact Or.inl ⟨n, rfl⟩
  · next hnone =>
    refine Or.inr ⟨_, rfl, ?_, ?_⟩
    · rwa [String.toList_ofList]
    · rwa [String.toList_ofList]

/-- It is read back from its text. -/
theorem IsFrom.ofToken_text (h : id.IsFrom isToken) : ofToken id.text.toList = id := by
  rcases h.eq with ⟨n, rfl⟩ | ⟨s, rfl, -, hnone⟩
  · rw [text, String.toList_ofList, ofToken, readWord?_writeWord]
  · rw [text, ofToken, hnone, String.ofList_toList]

theorem IsFrom.isToken_text (h : id.IsFrom isToken)
    (hword : ∀ n, isToken (writeWord n) = true) : isToken id.text.toList = true := by
  rcases h.eq with ⟨n, rfl⟩ | ⟨s, rfl, htoken, -⟩
  · rw [text, String.toList_ofList]
    exact hword n
  · exact htoken

/-- The record shows the same text. -/
theorem IsFrom.token_prereleaseId (h : id.IsFrom isToken) :
    id.prereleaseId.token = id.text.toList := by
  rcases h.eq with ⟨n, rfl⟩ | ⟨s, rfl, -, hnone⟩
  · rw [prereleaseId, PrereleaseId.token, text, String.toList_ofList]
  · rw [prereleaseId, PrereleaseId.ofToken, hnone, PrereleaseId.token, text]

end Identifier

/-- A version that the loose grammar can give: its identifiers were made of tokens. -/
structure Version.IsLoose (v : Version) : Prop where
  prerelease : ∀ id ∈ v.prerelease, id.IsFrom isLooseToken
  build : ∀ id ∈ v.build, id.IsFrom isBuildToken

/-! ## Lists of identifiers -/

theorem splitDots_dotted {token : List Char} {tokens : List (List Char)}
    (h : ∀ t ∈ token :: tokens, '.' ∉ t) :
    splitDots (token ++ dotted '.' tokens) = token :: tokens := by
  induction tokens generalizing token with
  | nil =>
    rw [dotted, List.append_nil]
    exact splitWhere_of_not_mem (beq_eq_false_of_not_mem (h token List.mem_cons_self))
  | cons next tokens ih =>
    have hfirst := beq_eq_false_of_not_mem (h token List.mem_cons_self)
    rw [dotted, List.cons_append, splitDots, splitWhere_piece hfirst rfl]
    exact congrArg (token :: ·) (ih fun t ht => h t (List.mem_cons_of_mem token ht))

theorem readTokens?_dotted {isToken : List Char → Bool} {token : List Char}
    {tokens : List (List Char)} (hdot : ∀ t, isToken t = true → '.' ∉ t)
    (h : ∀ t ∈ token :: tokens, isToken t = true) :
    readTokens? isToken (token ++ dotted '.' tokens) = some (token :: tokens) := by
  rw [readTokens?, splitDots_dotted fun t ht => hdot t (h t ht), if_pos (List.all_eq_true.2 h)]

theorem not_mem_of_isLooseToken {token : List Char} (h : isLooseToken token = true) {d : Char}
    (hd : (isDecimalDigit d || isIdentifierChar d) = false) : d ∉ token := by
  intro hmem
  rw [Bool.or_eq_false_iff] at hd
  rcases isTokenChar_of_isLooseToken h d hmem with hdigit | hchar
  · rw [hd.1] at hdigit
    cases hdigit
  · rw [hd.2] at hchar
    cases hchar

theorem not_mem_of_isBuildToken {token : List Char} (h : isBuildToken token = true) : '.' ∉ token :=
  fun hmem => absurd (isIdentifierChar_of_isBuildToken h '.' hmem) (by decide)

theorem not_mem_dotted {lead d : Char} (hlead : d ≠ lead) (hdot : d ≠ '.')
    {tokens : List (List Char)} (h : ∀ t ∈ tokens, d ∉ t) : d ∉ dotted lead tokens := by
  induction tokens generalizing lead with
  | nil => exact List.not_mem_nil
  | cons token tokens ih =>
    rw [dotted, List.mem_append, List.mem_cons, not_or, not_or]
    exact ⟨⟨hlead, h token List.mem_cons_self⟩,
      ih hdot fun t ht => h t (List.mem_cons_of_mem token ht)⟩

theorem readBuild?_dotted {front : List Char} (hfront : '+' ∉ front) {build : List (List Char)}
    (h : ∀ t ∈ build, isBuildToken t = true) :
    readBuild? (front ++ dotted '+' build) = some (front, build) := by
  have hplus := beq_eq_false_of_not_mem hfront
  cases build with
  | nil => rw [dotted, List.append_nil, readBuild?, cut?_of_not_mem hplus]
  | cons token tokens =>
    rw [dotted, List.cons_append, readBuild?, cut?_piece hplus rfl]
    dsimp only
    rw [readTokens?_dotted (fun t => not_mem_of_isBuildToken) h]
    rfl

theorem readPrerelease?_dotted {prerelease : List (List Char)}
    (h : ∀ t ∈ prerelease, isLooseToken t = true) :
    readPrerelease? (dotted '-' prerelease) = some prerelease := by
  cases prerelease with
  | nil => rfl
  | cons token tokens =>
    rw [dotted, List.cons_append, readPrerelease?,
      readTokens?_dotted (fun t ht => not_mem_of_isLooseToken ht (by decide)) h]

theorem readSuffix?_dotted {prerelease build : List (List Char)}
    (hpre : ∀ t ∈ prerelease, isLooseToken t = true) (hbuild : ∀ t ∈ build, isBuildToken t = true) :
    readSuffix? (dotted '-' prerelease ++ dotted '+' build) = some (prerelease, build) := by
  have hplus : '+' ∉ dotted '-' prerelease :=
    not_mem_dotted (by decide) (by decide) fun t ht =>
      not_mem_of_isLooseToken (hpre t ht) (by decide)
  rw [readSuffix?, readBuild?_dotted hplus hbuild]
  dsimp only [Option.bind_eq_bind, Option.bind_some]
  rw [readPrerelease?_dotted hpre]
  rfl

/-! ## Numbers -/

/-- A number is read to its end. -/
theorem Part.read?_digits {ds rest : List Char} (hds : isDigitToken ds = true)
    (hrest : ∀ c ∈ rest.head?, isDecimalDigit c = false) :
    read? (ds ++ rest) = some (.digits ds, rest) := by
  have htake : rest.takeWhile isDecimalDigit = [] := by
    cases rest with
    | nil => rfl
    | cons c rest => rw [List.takeWhile_cons, hrest c rfl]; rfl
  have hdrop : rest.dropWhile isDecimalDigit = rest := by
    cases rest with
    | nil => rfl
    | cons c rest => rw [List.dropWhile_cons, hrest c rfl]; rfl
  cases ds with
  | nil => cases hds
  | cons d ds =>
    simp only [isDigitToken, List.isEmpty_cons, Bool.not_false, Bool.true_and, List.all_cons,
      Bool.and_eq_true, List.all_eq_true] at hds
    obtain ⟨hd, hds⟩ := hds
    have hsmall : d ≠ 'x' := ne_of_isDecimalDigit hd (by decide)
    have hcapital : d ≠ 'X' := ne_of_isDecimalDigit hd (by decide)
    have hstar : d ≠ '*' := ne_of_isDecimalDigit hd (by decide)
    have hwild : (d == 'x' || d == 'X' || d == '*') = false := by
      simp [hsmall, hcapital, hstar]
    rw [List.cons_append, read?, hwild, if_neg Bool.false_ne_true, if_pos hd,
      List.takeWhile_append_of_pos hds, htake, List.append_nil, List.dropWhile_append_of_pos hds,
      hdrop]

/-- **Three numbers with a prerelease and a build are read as these pieces.** -/
theorem PartialText.ofParts?_dotted {major minor patch : List Char}
    {prerelease build : List (List Char)} (hmajor : isDigitToken major = true)
    (hminor : isDigitToken minor = true) (hpatch : isDigitToken patch = true)
    (hpre : ∀ t ∈ prerelease, isLooseToken t = true) (hbuild : ∀ t ∈ build, isBuildToken t = true) :
    ofParts? (major ++ '.' :: minor ++ '.' :: patch ++ dotted '-' prerelease ++
        dotted '+' build) =
      some { major := .digits major, minor := some (.digits minor), patch := some (.digits patch),
             prerelease := prerelease, build := build } := by
  have hdot (rest : List Char) : ∀ c ∈ ('.' :: rest).head?, isDecimalDigit c = false := by
    rintro c ⟨⟩
    decide
  have hhead : ∀ c ∈ (dotted '-' prerelease ++ dotted '+' build).head?,
      isDecimalDigit c = false := by
    cases prerelease with
    | nil =>
      cases build with
      | nil => nofun
      | cons => rintro c ⟨⟩; decide
    | cons => rintro c ⟨⟩; decide
  have hread : readPatch? (patch ++ (dotted '-' prerelease ++ dotted '+' build)) =
      some (.digits patch, prerelease, build) := by
    rw [readPatch?, Part.read?_digits hpatch hhead]
    dsimp only [Option.bind_eq_bind, Option.bind_some]
    rw [readSuffix?_dotted hpre hbuild]
  simp only [List.append_assoc, List.cons_append]
  rw [ofParts?, Part.read?_digits hmajor (hdot _)]
  show (Part.read? (minor ++ _)).bind _ = _
  rw [Part.read?_digits hminor (hdot _)]
  show (readPatch? (patch ++ _)).bind _ = _
  rw [hread]
  rfl

/-! ## Versions -/

namespace Version

/-- The parts of a version as it is written. -/
def partialText (v : Version) : PartialText where
  major := .digits (writeWord v.major)
  minor := some (.digits (writeWord v.minor))
  patch := some (.digits (writeWord v.patch))
  prerelease := v.prerelease.map fun id => id.text.toList
  build := v.build.map fun id => id.text.toList

variable {v : Version}

theorem IsLoose.chars (h : v.IsLoose) :
    v.record.chars =
      writeWord v.major ++ '.' :: writeWord v.minor ++ '.' :: writeWord v.patch ++
        dotted '-' v.partialText.prerelease ++ dotted '+' v.partialText.build := by
  have hpre : (v.prerelease.map Identifier.prereleaseId).map PrereleaseId.token =
      v.partialText.prerelease := by
    rw [List.map_map]
    exact List.map_congr_left fun id hid => (h.prerelease id hid).token_prereleaseId
  have hbuild : (v.build.map Identifier.text).map String.toList = v.partialText.build :=
    List.map_map
  rw [VersionRecord.chars, record, hpre, hbuild]

/-- **The text of a version reads back as its parts.** -/
theorem IsLoose.ofParts?_chars (h : v.IsLoose) :
    PartialText.ofParts? v.record.chars = some v.partialText := by
  have hpre : ∀ t ∈ v.partialText.prerelease, isLooseToken t = true := by
    intro t ht
    obtain ⟨id, hid, rfl⟩ := List.mem_map.1 ht
    exact (h.prerelease id hid).isToken_text isLooseToken_writeWord
  have hbuild : ∀ t ∈ v.partialText.build, isBuildToken t = true := by
    intro t ht
    obtain ⟨id, hid, rfl⟩ := List.mem_map.1 ht
    exact (h.build id hid).isToken_text isBuildToken_writeWord
  rw [h.chars]
  exact PartialText.ofParts?_dotted (isDigitToken_writeWord _) (isDigitToken_writeWord _)
    (isDigitToken_writeWord _) hpre hbuild

theorem map_ofToken_text {isToken : List Char → Bool} {ids : List Identifier}
    (h : ∀ id ∈ ids, id.IsFrom isToken) :
    (ids.map fun id => id.text.toList).map Identifier.ofToken = ids := by
  rw [List.map_map]
  exact (List.map_congr_left fun id hid => (h id hid).ofToken_text).trans (List.map_id ids)

theorem IsLoose.value?_partialText (h : v.IsLoose) :
    v.partialText.value? = some (.full v) := by
  simp only [PartialText.value?, partialText, Part.optionalValue?, Part.value?,
    readWord?_writeWord, Option.map_some]
  rw [map_ofToken_text h.prerelease, map_ofToken_text h.build]
  rfl

end Version

/-! ## Tokens that are read -/

theorem isToken_of_readTokens? {isToken : List Char → Bool} {cs : List Char}
    {tokens : List (List Char)} (h : readTokens? isToken cs = some tokens) :
    ∀ t ∈ tokens, isToken t = true := by
  unfold readTokens? at h
  split at h
  · next hall =>
    cases h
    exact List.all_eq_true.1 hall
  · cases h

theorem isBuildToken_of_readBuild? {cs front : List Char} {build : List (List Char)}
    (h : readBuild? cs = some (front, build)) : ∀ t ∈ build, isBuildToken t = true := by
  unfold readBuild? at h
  split at h
  · cases h
    nofun
  · obtain ⟨tokens, htokens, heq⟩ := Option.map_eq_some_iff.1 h
    cases heq
    exact isToken_of_readTokens? htokens

theorem isLooseToken_of_readPrerelease? {cs : List Char} {prerelease : List (List Char)}
    (h : readPrerelease? cs = some prerelease) : ∀ t ∈ prerelease, isLooseToken t = true := by
  unfold readPrerelease? at h
  split at h
  · cases h
    nofun
  · split at h
    · next hread =>
      cases h
      exact isToken_of_readTokens? hread
    · exact isToken_of_readTokens? h
  · exact isToken_of_readTokens? h

/-- The identifiers of a partial version are tokens. -/
structure PartialText.HasTokens (t : PartialText) : Prop where
  prerelease : ∀ token ∈ t.prerelease, isLooseToken token = true
  build : ∀ token ∈ t.build, isBuildToken token = true

namespace PartialText

theorem tokens_of_readSuffix? {cs : List Char} {prerelease build : List (List Char)}
    (h : readSuffix? cs = some (prerelease, build)) :
    (∀ t ∈ prerelease, isLooseToken t = true) ∧ ∀ t ∈ build, isBuildToken t = true := by
  unfold readSuffix? at h
  obtain ⟨⟨front, build'⟩, hbuild, h⟩ := Option.bind_eq_some_iff.1 h
  obtain ⟨prerelease', hpre, h⟩ := Option.bind_eq_some_iff.1 h
  cases h
  exact ⟨isLooseToken_of_readPrerelease? hpre, isBuildToken_of_readBuild? hbuild⟩

theorem tokens_of_readPatch? {cs : List Char} {part : Part} {prerelease build : List (List Char)}
    (h : readPatch? cs = some (part, prerelease, build)) :
    (∀ t ∈ prerelease, isLooseToken t = true) ∧ ∀ t ∈ build, isBuildToken t = true := by
  unfold readPatch? at h
  obtain ⟨⟨part', rest⟩, -, h⟩ := Option.bind_eq_some_iff.1 h
  dsimp only at h
  split at h
  · next hsuffix =>
    cases h
    exact tokens_of_readSuffix? hsuffix
  · cases h
  · split at h
    · obtain ⟨suffix, hsuffix, heq⟩ := Option.map_eq_some_iff.1 h
      cases heq
      exact tokens_of_readSuffix? hsuffix
    · cases h

theorem hasTokens_of_ofParts? {cs : List Char} {t : PartialText} (h : ofParts? cs = some t) :
    t.HasTokens := by
  unfold ofParts? at h
  obtain ⟨⟨major, rest⟩, -, h⟩ := Option.bind_eq_some_iff.1 h
  dsimp only at h
  split at h
  · cases h
    exact ⟨nofun, nofun⟩
  · obtain ⟨⟨minor, rest⟩, -, h⟩ := Option.bind_eq_some_iff.1 h
    dsimp only at h
    split at h
    · cases h
      exact ⟨nofun, nofun⟩
    · obtain ⟨⟨patch, prerelease, build⟩, hpatch, h⟩ := Option.bind_eq_some_iff.1 h
      cases h
      obtain ⟨hpre, hbuild⟩ := tokens_of_readPatch? hpatch
      exact ⟨hpre, hbuild⟩
    · cases h
  · cases h

end PartialText

/-- The identifiers of a full version are made of those of its parts. -/
theorem PartialText.identifiers_of_value? {t : PartialText} {v : Version}
    (h : t.value? = some (.full v)) :
    v.prerelease = t.prerelease.map Identifier.ofToken ∧ v.build = t.build.map Identifier.ofToken := by
  unfold PartialText.value? at h
  obtain ⟨major, -, h⟩ := Option.bind_eq_some_iff.1 h
  obtain ⟨minor, -, h⟩ := Option.bind_eq_some_iff.1 h
  obtain ⟨patch, -, h⟩ := Option.bind_eq_some_iff.1 h
  split at h
  · cases h
  · cases h
  · cases h
  · cases h
    exact ⟨rfl, rfl⟩

namespace Version

/-- **A version that is read is loose.** -/
theorem isLoose_of_value? {t : PartialText} {v : Version} (ht : t.HasTokens)
    (hv : t.value? = some (.full v)) : v.IsLoose := by
  obtain ⟨hpre, hbuild⟩ := PartialText.identifiers_of_value? hv
  refine ⟨?_, ?_⟩
  · intro id hid
    rw [hpre] at hid
    obtain ⟨token, htoken, rfl⟩ := List.mem_map.1 hid
    exact ⟨token, ht.prerelease token htoken, rfl⟩
  · intro id hid
    rw [hbuild] at hid
    obtain ⟨token, htoken, rfl⟩ := List.mem_map.1 hid
    exact ⟨token, ht.build token htoken, rfl⟩

end Version

end DepSpec
