import DepSpec.Proofs.Text.Pieces
import DepSpec.Version.Partial

set_option autoImplicit false

/-! # Characters of versions

Which characters a partial version may hold behind its lead characters. There is one lemma for
each reader, from the identifiers up: a text that it reads holds version characters only. In
particular a partial version holds no blank and no operator. -/

namespace DepSpec

open Text

/-- The characters of a partial version without lead characters. -/
def isVersionChar (c : Char) : Bool :=
  isDecimalDigit c || isIdentifierChar c || c == '.' || c == '+' || c == '*'

theorem isVersionChar_of_isDecimalDigit {c : Char} (h : isDecimalDigit c = true) :
    isVersionChar c = true := by
  simp [isVersionChar, h]

theorem isVersionChar_of_isIdentifierChar {c : Char} (h : isIdentifierChar c = true) :
    isVersionChar c = true := by
  simp [isVersionChar, h]

theorem isBlank_of_isVersionChar {c : Char} (h : isVersionChar c = true) : isBlank c = false :=
  isBlank_eq_false (by decide) h

theorem ne_of_isDecimalDigit {c d : Char} (hd : isDecimalDigit d = true)
    (hc : isDecimalDigit c = false) : d ≠ c := by
  rintro rfl
  simp [hd] at hc

/-- No digit leads a partial version. -/
theorem isLead_eq_false_of_isDecimalDigit {d : Char} (h : isDecimalDigit d = true) :
    PartialText.isLead d = false := by
  have hletter : d ≠ 'v' := ne_of_isDecimalDigit h (by decide)
  have hsign : d ≠ '=' := ne_of_isDecimalDigit h (by decide)
  have hblank := isBlank_of_isVersionChar (isVersionChar_of_isDecimalDigit h)
  simp [PartialText.isLead, hletter, hsign, hblank]

/-! ## Identifiers -/

/-- An identifier holds digits of any script, ASCII letters and hyphens. -/
theorem isTokenChar_of_isLooseToken {token : List Char} (h : isLooseToken token = true) :
    ∀ c ∈ token, isDecimalDigit c = true ∨ isIdentifierChar c = true := by
  intro c hc
  rw [isLooseToken, Bool.or_eq_true] at h
  rcases h with h | h
  · rw [isDigitToken, Bool.and_eq_true] at h
    exact Or.inl (List.all_eq_true.1 h.2 c hc)
  · rw [← List.takeWhile_append_dropWhile (p := isDecimalDigit) (l := token)] at hc
    rcases List.mem_append.1 hc with hc | hc
    · exact Or.inl (List.all_eq_true.1 List.all_takeWhile c hc)
    · right
      unfold isAlphanumericToken at h
      split at h
      · cases h
      · next d rest hdrop =>
        rw [hdrop] at hc
        rw [Bool.and_eq_true, isTokenLetter] at h
        rcases List.mem_cons.1 hc with rfl | hc
        · simp only [isIdentifierChar, Char.isAlphanum, Bool.or_eq_true] at h ⊢
          exact h.1.imp_left Or.inl
        · exact List.all_eq_true.1 h.2 c hc

theorem isIdentifierChar_of_isBuildToken {token : List Char} (h : isBuildToken token = true) :
    ∀ c ∈ token, isIdentifierChar c = true := by
  rw [isBuildToken, Bool.and_eq_true] at h
  exact List.all_eq_true.1 h.2

theorem isVersionChar_of_isLooseToken {token : List Char} (h : isLooseToken token = true) :
    ∀ c ∈ token, isVersionChar c = true := by
  intro c hc
  rcases isTokenChar_of_isLooseToken h c hc with hdigit | hchar
  · exact isVersionChar_of_isDecimalDigit hdigit
  · exact isVersionChar_of_isIdentifierChar hchar

theorem isVersionChar_of_isBuildToken {token : List Char} (h : isBuildToken token = true) :
    ∀ c ∈ token, isVersionChar c = true :=
  fun c hc => isVersionChar_of_isIdentifierChar (isIdentifierChar_of_isBuildToken h c hc)

theorem isVersionChar_of_readTokens? {isToken : List Char → Bool} {cs : List Char}
    {tokens : List (List Char)}
    (htoken : ∀ token, isToken token = true → ∀ c ∈ token, isVersionChar c = true)
    (h : readTokens? isToken cs = some tokens) : ∀ c ∈ cs, isVersionChar c = true := by
  intro c hc
  unfold readTokens? at h
  split at h
  · next hall =>
    rcases mem_splitWhere (· == '.') hc with hdot | ⟨piece, hpiece, hmem⟩
    · rw [beq_iff_eq.1 hdot]
      decide
    · exact htoken piece (List.all_eq_true.1 hall piece hpiece) c hmem
  · cases h

/-! ## Prerelease and build -/

theorem isVersionChar_of_readBuild? {cs front : List Char} {build : List (List Char)}
    (h : readBuild? cs = some (front, build)) (hfront : ∀ c ∈ front, isVersionChar c = true) :
    ∀ c ∈ cs, isVersionChar c = true := by
  unfold readBuild? at h
  split at h
  · cases h
    exact hfront
  · next before after hcut =>
    obtain ⟨tokens, htokens, heq⟩ := Option.map_eq_some_iff.1 h
    cases heq
    obtain ⟨plus, hplus, rfl, -⟩ := cut?_eq_some hcut
    intro c hc
    rcases List.mem_append.1 hc with hc | hc
    · exact hfront c hc
    · rcases List.mem_cons.1 hc with rfl | hc
      · rw [beq_iff_eq.1 hplus]
        decide
      · exact isVersionChar_of_readTokens? (fun _ => isVersionChar_of_isBuildToken) htokens c hc

theorem isVersionChar_of_readPrerelease? {cs : List Char} {tokens : List (List Char)}
    (h : readPrerelease? cs = some tokens) : ∀ c ∈ cs, isVersionChar c = true := by
  have hloose {cs tokens} := @isVersionChar_of_readTokens? isLooseToken cs tokens
    fun _ => isVersionChar_of_isLooseToken
  unfold readPrerelease? at h
  split at h
  · nofun
  · split at h
    · next hread =>
      intro c hc
      rcases List.mem_cons.1 hc with rfl | hc
      · decide
      · exact hloose hread c hc
    · exact hloose h
  · exact hloose h

theorem isVersionChar_of_readSuffix? {cs : List Char}
    {suffix : List (List Char) × List (List Char)} (h : readSuffix? cs = some suffix) :
    ∀ c ∈ cs, isVersionChar c = true := by
  unfold readSuffix? at h
  obtain ⟨⟨front, build⟩, hbuild, h⟩ := Option.bind_eq_some_iff.1 h
  obtain ⟨tokens, htokens, -⟩ := Option.bind_eq_some_iff.1 h
  exact isVersionChar_of_readBuild? hbuild (isVersionChar_of_readPrerelease? htokens)

/-! ## Parts -/

/-- The characters of a part. -/
def isPartChar (c : Char) : Bool := isDecimalDigit c || c == 'x' || c == 'X' || c == '*'

theorem isVersionChar_of_isPartChar {c : Char} (h : isPartChar c = true) : isVersionChar c = true := by
  simp only [isPartChar, Bool.or_eq_true, beq_iff_eq] at h
  rcases h with ((h | rfl) | rfl) | rfl
  · exact isVersionChar_of_isDecimalDigit h
  all_goals decide

/-- A number is read off the front of a text. -/
theorem Part.eq_append_of_read? {cs ds rest : List Char} (h : read? cs = some (.digits ds, rest)) :
    cs = ds ++ rest ∧ ∀ c ∈ ds, isDecimalDigit c = true := by
  cases cs with
  | nil => cases h
  | cons c cs =>
    rw [read?] at h
    split at h
    · cases h
    · split at h
      · next hdigit =>
        cases h
        rw [List.cons_append, List.takeWhile_append_dropWhile]
        exact ⟨rfl, List.forall_mem_cons.2 ⟨hdigit, List.all_eq_true.1 List.all_takeWhile⟩⟩
      · cases h

/-- So is any part. -/
theorem Part.read?_spec {cs rest : List Char} {part : Part} (h : read? cs = some (part, rest)) :
    ∃ front, cs = front ++ rest ∧ ∀ c ∈ front, isPartChar c = true := by
  cases part with
  | digits ds =>
    obtain ⟨hcs, hdigits⟩ := eq_append_of_read? h
    exact ⟨ds, hcs, fun c hc => by simp [isPartChar, hdigits c hc]⟩
  | wildcard =>
    cases cs with
    | nil => cases h
    | cons c cs =>
      rw [read?] at h
      split at h
      · next hwild =>
        cases h
        refine ⟨[c], rfl, List.forall_mem_singleton.2 ?_⟩
        rw [isPartChar, Bool.or_assoc, Bool.or_assoc, ← Bool.or_assoc (c == 'x'), hwild, Bool.or_true]
      · split at h <;> cases h

theorem Part.exists_head_of_read? {cs rest : List Char} {part : Part}
    (h : read? cs = some (part, rest)) : ∃ c tail, cs = c :: tail ∧ isPartChar c = true := by
  cases cs with
  | nil => cases h
  | cons c cs =>
    refine ⟨c, cs, rfl, ?_⟩
    rw [read?] at h
    split at h
    · next hwild =>
      simp only [Bool.or_eq_true, beq_iff_eq] at hwild
      rcases hwild with (rfl | rfl) | rfl <;> decide
    · split at h
      · next hdigit => simp [isPartChar, hdigit]
      · cases h

theorem isVersionChar_of_read? {cs rest : List Char} {part : Part}
    (h : Part.read? cs = some (part, rest)) (hrest : ∀ c ∈ rest, isVersionChar c = true) :
    ∀ c ∈ cs, isVersionChar c = true := by
  obtain ⟨front, rfl, hfront⟩ := Part.read?_spec h
  intro c hc
  exact (List.mem_append.1 hc).elim (fun hc => isVersionChar_of_isPartChar (hfront c hc)) (hrest c)

namespace PartialText

theorem isVersionChar_of_readPatch? {cs : List Char}
    {patch : Part × List (List Char) × List (List Char)} (h : readPatch? cs = some patch) :
    ∀ c ∈ cs, isVersionChar c = true := by
  unfold readPatch? at h
  obtain ⟨⟨part, rest⟩, hread, h⟩ := Option.bind_eq_some_iff.1 h
  refine isVersionChar_of_read? hread ?_
  dsimp only at h
  split at h
  · next hsuffix => exact isVersionChar_of_readSuffix? hsuffix
  · cases h
  · split at h
    · obtain ⟨suffix, hsuffix, -⟩ := Option.map_eq_some_iff.1 h
      exact fun c hc => isVersionChar_of_readSuffix? hsuffix c (List.mem_cons_of_mem _ hc)
    · cases h

theorem isVersionChar_of_ofParts? {cs : List Char} {t : PartialText} (h : ofParts? cs = some t) :
    ∀ c ∈ cs, isVersionChar c = true := by
  have hdot {rest : List Char} (hrest : ∀ c ∈ rest, isVersionChar c = true) :
      ∀ c ∈ '.' :: rest, isVersionChar c = true := by
    intro c hc
    rcases List.mem_cons.1 hc with rfl | hc
    · decide
    · exact hrest c hc
  unfold ofParts? at h
  obtain ⟨⟨major, rest⟩, hmajor, h⟩ := Option.bind_eq_some_iff.1 h
  refine isVersionChar_of_read? hmajor ?_
  dsimp only at h
  split at h
  · nofun
  · obtain ⟨⟨minor, rest⟩, hminor, h⟩ := Option.bind_eq_some_iff.1 h
    refine hdot (isVersionChar_of_read? hminor ?_)
    dsimp only at h
    split at h
    · nofun
    · obtain ⟨patch, hpatch, -⟩ := Option.bind_eq_some_iff.1 h
      exact hdot (isVersionChar_of_readPatch? hpatch)
    · cases h
  · cases h

/-- The text begins with the first part. -/
theorem exists_head_of_ofParts? {cs : List Char} {t : PartialText} (h : ofParts? cs = some t) :
    ∃ c rest, cs = c :: rest ∧ isPartChar c = true := by
  unfold ofParts? at h
  obtain ⟨⟨major, rest⟩, hmajor, -⟩ := Option.bind_eq_some_iff.1 h
  exact Part.exists_head_of_read? hmajor

end PartialText

end DepSpec
