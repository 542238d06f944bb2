import DepSpec.Proofs.Version.SemanticVersions

set_option autoImplicit false

/-! # Versions are read back from their text

A record is written as the pieces `VersionRecord.pieces`, and the strict reader makes a record of
pieces by `StrictText.value?`. The two are inverse to each other: a number without leading zeros is
written the way it was read, one that fits no word is kept as it is, and a text with a letter or a
hyphen is never taken for a number. So writing a version that was read gives its text again, and
reading the text of a record gives the record (`VersionRecord.text_is_inverse_of_parse`). -/

namespace DepSpec

open Text StrictText

/-! ## Numbers and identifiers -/

theorem map_map_eq_self {α β : Type} {f : α → β} {g : β → α} {l : List α}
    (h : ∀ a ∈ l, g (f a) = a) : (l.map f).map g = l := by
  rw [List.map_map]
  exact (List.map_congr_left h).trans (List.map_id l)

/-- A number without leading zeros is written the way it was read. -/
theorem writeWord_of_readWord? {ds : List Char} {n : UInt64} (h : isCanonicalNumber ds = true)
    (hn : readWord? ds = some n) : writeWord n = ds := by
  obtain ⟨hfits, hvalue⟩ := readWord?_eq_some hn
  rw [fitsWord, Bool.and_eq_true, List.all_eq_true] at hfits
  rw [writeWord, hvalue, writeNat_numeralValue h hfits.1]

theorem readWord?_of_isAlphanumeric {token : List Char} (h : IsAlphanumeric token) :
    readWord? token = none := by
  refine Option.eq_none_iff_forall_ne_some.2 fun n hn => ?_
  obtain ⟨hfits, -⟩ := readWord?_eq_some hn
  rw [fitsWord, Bool.and_eq_true, List.all_eq_true] at hfits
  obtain ⟨-, c, hc, hdigit⟩ := h
  rw [hfits.1 c hc] at hdigit
  cases hdigit

namespace PrereleaseId

/-- An identifier is written the way it was read, whatever its kind. -/
theorem token_ofToken {token : List Char} (h : isStrictToken token = true) :
    (ofToken (String.ofList token)).token = token := by
  unfold ofToken
  rw [String.toList_ofList]
  split
  · next n hn =>
    obtain ⟨hfits, -⟩ := readWord?_eq_some hn
    rw [fitsWord, Bool.and_eq_true, List.all_eq_true] at hfits
    exact writeWord_of_readWord? (isCanonicalNumber_of_isDigit h hfits.1) hn
  · exact String.toList_ofList

/-- An identifier keeps its kind if a text is no number. -/
theorem ofToken_token {id : PrereleaseId} (h : ∀ s, id = text s → IsAlphanumeric s.toList) :
    ofToken (String.ofList id.token) = id := by
  cases id with
  | int n => rw [ofToken, String.toList_ofList, token, readWord?_writeWord]
  | text s =>
    rw [ofToken, String.toList_ofList, token, readWord?_of_isAlphanumeric (h s rfl),
      String.ofList_toList]

/-- The token of such an identifier is one of the grammar. -/
theorem isStrictToken_token {id : PrereleaseId} (h : ∀ s, id = text s → IsAlphanumeric s.toList) :
    isStrictToken id.token = true := by
  rw [isStrictToken, Bool.or_eq_true]
  cases id with
  | int n => exact Or.inl (isCanonicalNumber_writeNat n.toNat)
  | text s => exact Or.inr (isAlphanumeric_iff.1 (h s rfl)).1

end PrereleaseId

/-! ## Records and pieces -/

/-- The pieces that the text of a record is put together from. -/
def VersionRecord.pieces (w : VersionRecord) : StrictText where
  major := writeWord w.major
  minor := writeWord w.minor
  patch := writeWord w.patch
  prerelease := w.prerelease.map PrereleaseId.token
  build := w.build.map String.toList

theorem VersionRecord.chars_pieces (w : VersionRecord) : w.pieces.chars = w.chars := rfl

/-- The record of pieces of the grammar is written as these pieces. -/
theorem StrictText.HasTokens.pieces_of_value? {t : StrictText} {w : VersionRecord}
    (h : t.HasTokens) (hw : t.value? = some w) : w.pieces = t := by
  obtain ⟨major, hmajor, hw⟩ := Option.bind_eq_some_iff.1 hw
  obtain ⟨minor, hminor, hw⟩ := Option.bind_eq_some_iff.1 hw
  obtain ⟨patch, hpatch, hw⟩ := Option.bind_eq_some_iff.1 hw
  cases hw
  have hpre : (t.prerelease.map fun token => PrereleaseId.ofToken (String.ofList token)).map
      PrereleaseId.token = t.prerelease :=
    map_map_eq_self fun token htoken => PrereleaseId.token_ofToken (h.prerelease token htoken)
  have hbuild : (t.build.map String.ofList).map String.toList = t.build :=
    map_map_eq_self fun _ _ => String.toList_ofList
  rw [VersionRecord.pieces, hpre, hbuild, writeWord_of_readWord? h.major hmajor,
    writeWord_of_readWord? h.minor hminor, writeWord_of_readWord? h.patch hpatch]

namespace VersionRecord

variable {w : VersionRecord} {text : String}

theorem IsCanonical.isAlphanumeric (h : w.IsCanonical) {id : PrereleaseId}
    (hid : id ∈ w.prerelease) : ∀ s, id = .text s → IsAlphanumeric s.toList :=
  fun s hs => h.prerelease s (hs ▸ hid)

theorem IsCanonical.hasTokens_pieces (h : w.IsCanonical) : w.pieces.HasTokens where
  major := isCanonicalNumber_writeNat w.major.toNat
  minor := isCanonicalNumber_writeNat w.minor.toNat
  patch := isCanonicalNumber_writeNat w.patch.toNat
  prerelease := List.forall_mem_map.2 fun _ hid =>
    PrereleaseId.isStrictToken_token (h.isAlphanumeric hid)
  build := List.forall_mem_map.2 fun s hs => (isBuild_iff.1 (h.build s hs)).1

/-- The pieces of a record make that record. -/
theorem IsCanonical.value?_pieces (h : w.IsCanonical) : w.pieces.value? = some w := by
  have hpre : (w.prerelease.map PrereleaseId.token).map
      (fun token => PrereleaseId.ofToken (String.ofList token)) = w.prerelease :=
    map_map_eq_self fun _ hid => PrereleaseId.ofToken_token (h.isAlphanumeric hid)
  have hbuild : (w.build.map String.toList).map String.ofList = w.build :=
    map_map_eq_self fun _ _ => String.ofList_toList
  simp only [value?, pieces, readWord?_writeWord, hpre, hbuild, Option.bind_eq_bind,
    Option.bind_some]

/-! ## Texts -/

/-- The text of pieces holds no blank and begins with no `v`. -/
theorem dropV_trim_chars {t : StrictText} (h : t.HasTokens) : dropV (trim t.chars) = t.chars := by
  have hblank : ∀ c ∈ t.chars, isBlank c = false := fun c hc =>
    isBlank_of_isVersionChar (PartialText.isVersionChar_of_ofParts? h.ofParts?_chars c hc)
  rw [trim_of_not_blank hblank]
  obtain ⟨d, rest, hchars, hd⟩ := h.chars_eq_cons
  have hne : d ≠ 'v' := ne_of_isDecimalDigit hd (by decide)
  rw [hchars]
  unfold dropV
  split
  · next heq => exact absurd (List.cons.inj heq).1 hne
  · rfl

/-- A version that was read is written as its text, without blanks around it and the `v` in front. -/
theorem text_of_parse (h : parse text = .ok w) :
    w.text = String.ofList (dropV (trim text.toList)) := by
  obtain ⟨t, ht, hvalue⟩ := exists_spells_of_parse h
  rw [VersionRecord.text, ← chars_pieces, ht.tokens.pieces_of_value? hvalue, ht.chars]

/-- The text of a record is read as the record. -/
theorem IsCanonical.parse_text (h : w.IsCanonical) : parse w.text = .ok w := by
  have hspells : w.pieces.Spells w.text := by
    refine ⟨h.hasTokens_pieces, ?_⟩
    rw [VersionRecord.text, String.toList_ofList, ← chars_pieces,
      dropV_trim_chars h.hasTokens_pieces]
  exact parse_of_value? hspells h.value?_pieces

/-- **Writing and reading versions are inverse to each other.** A version that was read is written as
    the text that it was read from, up to blanks around it and one `v` in front; and a record that a
    semantic version can lead to is read back from its text. -/
theorem text_is_inverse_of_parse :
    (∀ text w, parse text = .ok w → w.text = String.ofList (dropV (trim text.toList))) ∧
      ∀ w : VersionRecord, w.IsCanonical → parse w.text = .ok w :=
  ⟨fun _ _ => text_of_parse, fun _ => IsCanonical.parse_text⟩

/-- A record with the largest word and with identifiers that begin with hyphens or are hyphens alone. -/
def hyphenRecord : VersionRecord where
  major := 0
  minor := 18446744073709551615
  patch := 7
  prerelease := [.text "-", .int 18446744073709551615, .text "-0", .text "x--1"]
  build := ["-", "007"]

theorem texts_are_read_back :
    parse Version.mixedText = .ok Version.mixedRecord ∧
      Version.mixedRecord.text = String.ofList (dropV (trim Version.mixedText.toList)) ∧
      hyphenRecord.IsCanonical ∧ parse hyphenRecord.text = .ok hyphenRecord := by
  have hparse : parse Version.mixedText = .ok Version.mixedRecord := rfl
  have hcanonical : hyphenRecord.IsCanonical := by
    refine ⟨fun s hs => ?_, fun s hs => ?_⟩
    · simp only [hyphenRecord, List.mem_cons, PrereleaseId.text.injEq, reduceCtorEq,
        List.not_mem_nil, false_or, or_false] at hs
      rcases hs with rfl | rfl | rfl <;>
        exact ⟨List.all_eq_true.1 (by decide), '-', by decide, by decide⟩
    · simp only [hyphenRecord, List.mem_cons, List.not_mem_nil, or_false] at hs
      rcases hs with rfl | rfl <;> exact ⟨by decide, List.all_eq_true.1 (by decide)⟩
  exact ⟨hparse, text_is_inverse_of_parse.1 _ _ hparse, hcanonical,
    text_is_inverse_of_parse.2 _ hcanonical⟩

end VersionRecord

end DepSpec
