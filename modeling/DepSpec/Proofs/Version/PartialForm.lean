import DepSpec.Proofs.Version.RecordOrder
import DepSpec.Version.PartialForm

set_option autoImplicit false

/-! # Reading partial versions

The reader of partial versions and their grammar agree: what the grammar spells is read as the partial
version that it spells (`Partial.SpellsParts.ofParts?`), and what is read is spelt by the grammar
(`PartialText.spellsParts_of_ofParts?`). The reader looks one way only but for the third part, which
gives up a digit if the text behind it cannot be read otherwise; there the two lemmas
`readPatch?_givenUp` and `spellsPrerelease_of_givenUp` say that the text behind it begins with a
dot. -/

namespace DepSpec

open Text StrictText

/-! ## Parts -/

/-- A numeral whose value fits a word is read as that word. -/
theorem readWord?_of_value {ds : List Char} {n : UInt64} (hne : ds ≠ [])
    (hdigits : ∀ c ∈ ds, c.isDigit = true) (hvalue : numeralValue ds = n.toNat) :
    readWord? ds = some n := by
  have hfits : fitsWord ds = true := by
    rw [fitsWord, List.all_eq_true.2 hdigits, hvalue, Bool.true_and, decide_eq_true_eq]
    exact n.toNat_lt
  obtain ⟨m, hread, hm⟩ := readWord?_of_fitsWord hne hfits
  rw [hread, UInt64.toNat_inj.1 (hm.trans hvalue)]

theorem Part.Spells.read? {cs : List Char} {value : Option UInt64} (h : Spells cs value) :
    ∃ part : Part, part.value? = some value ∧
      ∀ rest : List Char, (value.isSome = true → ∀ c ∈ rest.head?, isDecimalDigit c = false) →
        Part.read? (cs ++ rest) = some (part, rest) := by
  cases h with
  | wildcard hc =>
    refine ⟨.wildcard, rfl, fun rest _ => ?_⟩
    rcases hc with rfl | rfl | rfl <;> rfl
  | number hne hdigits hvalue =>
    refine ⟨.digits cs, ?_, fun rest hrest => ?_⟩
    · rw [value?, readWord?_of_value hne hdigits hvalue]
      rfl
    · exact read?_digits (isDigitToken_of_isDigit hne hdigits) (hrest rfl)

/-! ## Prerelease and build -/

theorem readTokens?_loose {token : List Char} {tokens : List (List Char)}
    (h : ∀ t ∈ token :: tokens, isLooseToken t = true) :
    readTokens? isLooseToken (token ++ dotted '.' tokens) = some (token :: tokens) :=
  readTokens?_dotted (fun _ ht => not_mem_of_isLooseToken ht (by decide)) h

/-- No identifier is empty. -/
theorem readTokens?_empty {tokens : List (List Char)} (h : ∀ t ∈ tokens, isLooseToken t = true) :
    readTokens? isLooseToken (dotted '.' tokens) = none := by
  have hdot : ∀ t ∈ [] :: tokens, '.' ∉ t :=
    List.forall_mem_cons.2
      ⟨List.not_mem_nil, fun t ht => not_mem_of_isLooseToken (h t ht) (by decide)⟩
  have hsplit : splitDots (dotted '.' tokens) = [] :: tokens := splitDots_dotted hdot
  rw [readTokens?, hsplit]
  rfl

theorem not_mem_joined {token : List Char} {tokens : List (List Char)}
    (h : ∀ t ∈ token :: tokens, isLooseToken t = true) : '+' ∉ token ++ dotted '.' tokens := by
  have hplus : ∀ t ∈ token :: tokens, '+' ∉ t :=
    fun t ht => not_mem_of_isLooseToken (h t ht) (by decide)
  rw [List.mem_append, not_or]
  exact ⟨hplus token List.mem_cons_self,
    not_mem_dotted (by decide) (by decide) fun t ht => hplus t (List.mem_cons_of_mem token ht)⟩

theorem readPrerelease?_of_ne {c : Char} (h : c ≠ '-') (cs : List Char) :
    readPrerelease? (c :: cs) = readTokens? isLooseToken (c :: cs) := by
  rw [readPrerelease?]
  · exact List.cons_ne_nil c cs
  · exact fun _ heq => h (List.cons.inj heq).1

namespace SpellsPrerelease

variable {afterNumber : Bool} {cs : List Char} {prerelease : List (List Char)}

theorem isLooseToken (h : SpellsPrerelease afterNumber cs prerelease) :
    ∀ t ∈ prerelease, DepSpec.isLooseToken t = true := by
  cases h with
  | none => nofun
  | hyphen h => exact h
  | bare h => exact h
  | lone h => exact List.forall_mem_cons.2 ⟨by decide, h⟩
  | givenUp _ hd _ h =>
    refine List.forall_mem_cons.2 ⟨?_, h⟩
    simp [DepSpec.isLooseToken, isDigitToken, hd]

theorem readPrerelease? (h : SpellsPrerelease afterNumber cs prerelease) :
    DepSpec.readPrerelease? cs = some prerelease := by
  have htokens := h.isLooseToken
  cases h with
  | none => rfl
  | hyphen => rw [DepSpec.readPrerelease?, readTokens?_loose htokens]
  | bare _ hhyphen =>
    rw [List.cons_append, readPrerelease?_of_ne hhyphen]
    exact readTokens?_loose htokens
  | lone h =>
    rw [DepSpec.readPrerelease?, readTokens?_empty h]
    exact readTokens?_loose htokens
  | givenUp _ hd =>
    rw [readPrerelease?_of_ne (ne_of_isDecimalDigit hd (by decide))]
    exact readTokens?_loose htokens

theorem not_mem_plus (h : SpellsPrerelease afterNumber cs prerelease) : '+' ∉ cs := by
  have htokens := h.isLooseToken
  cases h with
  | none => exact List.not_mem_nil
  | hyphen => exact List.not_mem_cons_of_ne_of_not_mem (by decide) (not_mem_joined htokens)
  | bare => exact not_mem_joined htokens
  | lone => exact not_mem_joined htokens
  | givenUp => exact not_mem_joined htokens

theorem readSuffix? (h : SpellsPrerelease afterNumber cs prerelease) {build : List (List Char)}
    (hbuild : ∀ t ∈ build, isBuildToken t = true) :
    DepSpec.readSuffix? (cs ++ dotted '+' build) = some (prerelease, build) := by
  rw [DepSpec.readSuffix?, readBuild?_dotted h.not_mem_plus hbuild]
  show (DepSpec.readPrerelease? cs).bind _ = _
  rw [h.readPrerelease?]
  rfl

end SpellsPrerelease

/-! ## The third part -/

namespace PartialText

/-- A part is as long as it can be if a prerelease and a build follow. -/
theorem readPatch?_of_suffix {cs rest : List Char} {part : Part}
    {suffix : List (List Char) × List (List Char)} (hpart : Part.read? cs = some (part, rest))
    (hsuffix : readSuffix? rest = some suffix) : readPatch? cs = some (part, suffix) := by
  rw [readPatch?, hpart]
  dsimp only [Option.bind_eq_bind, Option.bind_some]
  rw [hsuffix]

/-- Otherwise the number gives up its last digit. -/
theorem readPatch?_of_givenUp {ds rest : List Char} {d : Char}
    {suffix : List (List Char) × List (List Char)} (hne : ds ≠ [])
    (hpart : Part.read? (ds ++ d :: rest) = some (.digits (ds ++ [d]), rest))
    (hnone : readSuffix? rest = none) (hsuffix : readSuffix? (d :: rest) = some suffix) :
    readPatch? (ds ++ d :: rest) = some (.digits ds, suffix) := by
  rw [readPatch?, hpart]
  dsimp only [Option.bind_eq_bind, Option.bind_some]
  rw [hnone]
  dsimp only
  rw [List.dropLast_concat, List.getLast?_concat]
  cases ds with
  | nil => exact absurd rfl hne
  | cons => simp [hsuffix]

/-- A number gives up its last digit to a prerelease that would begin with a dot. -/
theorem readPatch?_givenUp {ds : List Char} {d : Char} {rest build : List (List Char)}
    (hds : isDigitToken ds = true) (hd : isDecimalDigit d = true) (hne : rest ≠ [])
    (hrest : ∀ t ∈ rest, isLooseToken t = true) (hbuild : ∀ t ∈ build, isBuildToken t = true) :
    readPatch? (ds ++ d :: (dotted '.' rest ++ dotted '+' build)) =
      some (.digits ds, [d] :: rest, build) := by
  have hlong : isDigitToken (ds ++ [d]) = true := by
    rw [isDigitToken, Bool.and_eq_true] at hds
    simp [isDigitToken, hds.2, hd]
  have hspells : SpellsPrerelease true (d :: dotted '.' rest) ([d] :: rest) :=
    .givenUp rfl hd hne hrest
  have hhead : ∀ c ∈ (dotted '.' rest ++ dotted '+' build).head?, isDecimalDigit c = false := by
    cases rest with
    | nil => exact absurd rfl hne
    | cons => rintro c ⟨⟩; decide
  have hread : Part.read? (ds ++ d :: (dotted '.' rest ++ dotted '+' build)) =
      some (.digits (ds ++ [d]), dotted '.' rest ++ dotted '+' build) := by
    rw [List.append_cons]
    exact Part.read?_digits hlong hhead
  have hnone : readSuffix? (dotted '.' rest ++ dotted '+' build) = none := by
    have hplus : '+' ∉ dotted '.' rest := fun hmem =>
      hspells.not_mem_plus (List.mem_cons_of_mem d hmem)
    have hempty : readPrerelease? (dotted '.' rest) = none := by
      cases rest with
      | nil => exact absurd rfl hne
      | cons token tokens =>
        rw [dotted, List.cons_append, readPrerelease?_of_ne (by decide)]
        exact readTokens?_empty hrest
    rw [readSuffix?, readBuild?_dotted hplus hbuild]
    show (readPrerelease? (dotted '.' rest)).bind _ = _
    rw [hempty]
    rfl
  have hds' : ds ≠ [] := by
    rintro rfl
    cases hds
  exact readPatch?_of_givenUp hds' hread hnone (hspells.readSuffix? hbuild)

/-- What follows the text of a third part tells where the part ends. -/
theorem exists_readPatch? {cs pre : List Char} {value : Option UInt64}
    {prerelease build : List (List Char)} (hpart : Part.Spells cs value)
    (hpre : SpellsPrerelease value.isSome pre prerelease)
    (hbuild : ∀ t ∈ build, isBuildToken t = true) :
    ∃ part : Part, part.value? = some value ∧
      readPatch? (cs ++ (pre ++ dotted '+' build)) = some (part, prerelease, build) := by
  have hlong (hhead : value.isSome = true →
      ∀ c ∈ (pre ++ dotted '+' build).head?, isDecimalDigit c = false) :
      ∃ part : Part, part.value? = some value ∧
        readPatch? (cs ++ (pre ++ dotted '+' build)) = some (part, prerelease, build) := by
    obtain ⟨part, hvalue, hread⟩ := hpart.read?
    exact ⟨part, hvalue, readPatch?_of_suffix (hread _ hhead) (hpre.readSuffix? hbuild)⟩
  cases hpre with
  | none =>
    refine hlong fun _ => ?_
    cases build with
    | nil => nofun
    | cons => rintro c ⟨⟩; decide
  | hyphen => exact hlong fun _ => by rintro c ⟨⟩; decide
  | bare _ _ hdigit => exact hlong fun hnumber => by rintro c ⟨⟩; exact hdigit hnumber
  | lone => exact hlong fun _ => by rintro c ⟨⟩; decide
  | givenUp hnumber hd hne hrest =>
    cases hpart with
    | wildcard => cases hnumber
    | number hne' hdigits hvalue =>
      refine ⟨.digits cs, ?_, ?_⟩
      · rw [Part.value?, readWord?_of_value hne' hdigits hvalue]
        rfl
      · exact readPatch?_givenUp (isDigitToken_of_isDigit hne' hdigits) hd hne hrest hbuild

end PartialText

/-! ## Partial versions -/

theorem PartialText.value?_eq_ofParts {t : PartialText} {a b c : Option UInt64}
    (ha : t.major.value? = some a) (hb : Part.optionalValue? t.minor = some b)
    (hc : Part.optionalValue? t.patch = some c) :
    t.value? = some (.ofParts [a, b, c] t.prerelease t.build) := by
  rw [value?, ha, hb, hc]
  cases a <;> cases b <;> cases c <;> rfl

/-- **What the grammar spells is read.** -/
theorem Partial.SpellsParts.ofParts? {cs : List Char} {p : Partial} (h : SpellsParts cs p) :
    ∃ t : PartialText, PartialText.ofParts? cs = some t ∧ t.value? = some p := by
  have hdot (rest : List Char) : ∀ c ∈ ('.' :: rest).head?, isDecimalDigit c = false := by
    rintro c ⟨⟩
    decide
  cases h with
  | @one _ a hm =>
    obtain ⟨major, hmajor, hread⟩ := hm.read?
    have hread := hread [] fun _ => nofun
    rw [List.append_nil] at hread
    refine ⟨{ major := major }, ?_, Eq.trans (PartialText.value?_eq_ofParts hmajor rfl rfl) ?_⟩
    · rw [PartialText.ofParts?, hread]
      rfl
    · cases a <;> rfl
  | @two _ _ a b hm hn =>
    obtain ⟨major, hmajor, hread⟩ := hm.read?
    obtain ⟨minor, hminor, hread'⟩ := hn.read?
    have hread' := hread' [] fun _ => nofun
    rw [List.append_nil] at hread'
    refine ⟨{ major := major, minor := some minor }, ?_,
      Eq.trans (PartialText.value?_eq_ofParts hmajor hminor rfl) ?_⟩
    · rw [PartialText.ofParts?, hread _ fun _ => hdot _]
      show (Part.read? _).bind _ = _
      rw [hread']
      rfl
    · cases a <;> cases b <;> rfl
  | three hm hn hp hpre hbuild =>
    obtain ⟨major, hmajor, hread⟩ := hm.read?
    obtain ⟨minor, hminor, hread'⟩ := hn.read?
    obtain ⟨patch, hpatch, hread''⟩ := PartialText.exists_readPatch? hp hpre hbuild
    refine ⟨{ major := major, minor := some minor, patch := some patch, prerelease := _, build := _ },
      ?_, PartialText.value?_eq_ofParts hmajor hminor hpatch⟩
    simp only [List.append_assoc, List.cons_append]
    rw [PartialText.ofParts?, hread _ fun _ => hdot _]
    show (Part.read? _).bind _ = _
    rw [hread' _ fun _ => hdot _]
    show (PartialText.readPatch? _).bind _ = _
    rw [hread'']
    rfl

/-! ## What is read -/

/-- An identifier without its first digit is one. -/
theorem isLooseToken_of_digit_cons {d : Char} {token : List Char} (hd : isDecimalDigit d = true)
    (hne : token ≠ []) (h : isLooseToken (d :: token) = true) : isLooseToken token = true := by
  rw [isLooseToken, Bool.or_eq_true] at h ⊢
  rcases h with hdigits | halpha
  · left
    rw [isDigitToken, List.all_cons, Bool.and_eq_true, Bool.and_eq_true] at hdigits
    rw [isDigitToken, hdigits.2.2, List.isEmpty_eq_false_iff.2 hne]
    rfl
  · right
    rwa [isAlphanumericToken, List.dropWhile_cons, if_pos hd] at halpha

/-- So is one without its first hyphen. -/
theorem isLooseToken_of_hyphen_cons {token : List Char} (hne : token ≠ [])
    (h : isLooseToken ('-' :: token) = true) : isLooseToken token = true := by
  have hchars : ∀ c ∈ token, isIdentifierChar c = true := by
    have hall : isDigitToken ('-' :: token) = false := rfl
    rw [isLooseToken, hall, Bool.false_or, isAlphanumericToken, List.dropWhile_cons,
      if_neg (by decide), Bool.and_eq_true] at h
    exact List.all_eq_true.1 h.2
  rw [isLooseToken, Bool.or_eq_true]
  cases hdrop : token.dropWhile isDecimalDigit with
  | nil =>
    left
    have hall : token.all isDecimalDigit = true :=
      List.all_eq_true.2 (List.dropWhile_eq_nil_iff.1 hdrop)
    rw [isDigitToken, hall, List.isEmpty_eq_false_iff.2 hne]
    rfl
  | cons c rest =>
    right
    have hsubset : ∀ e ∈ c :: rest, isIdentifierChar e = true := fun e he =>
      hchars e ((List.dropWhile_suffix isDecimalDigit).subset (hdrop ▸ he))
    obtain ⟨hchar, hrest⟩ := List.forall_mem_cons.1 hsubset
    have hdigit : isDecimalDigit c = false := by
      have hhead := List.head?_dropWhile_not isDecimalDigit token
      rw [hdrop] at hhead
      simpa using hhead
    have hletter : isTokenLetter c = true := by
      have hascii : c.isDigit ≠ true := fun h => by simp [isDecimalDigit_of_isDigit h] at hdigit
      simpa [isIdentifierChar, Char.isAlphanum, isTokenLetter, hascii] using hchar
    rw [isAlphanumericToken, hdrop]
    exact Bool.and_eq_true_iff.2 ⟨hletter, List.all_eq_true.2 hrest⟩

/-- What is read as identifiers is these, with dots between them. -/
theorem joined_of_readTokens? {isToken : List Char → Bool} {cs : List Char}
    {tokens : List (List Char)} (h : readTokens? isToken cs = some tokens) :
    ∃ token rest, tokens = token :: rest ∧ cs = token ++ dotted '.' rest ∧
      ∀ t ∈ token :: rest, isToken t = true := by
  have htokens := isToken_of_readTokens? h
  have hdotted := dotted_of_readTokens? h '.'
  cases tokens with
  | nil => cases hdotted
  | cons token rest => exact ⟨token, rest, rfl, (List.cons.inj hdotted).2.symm, htokens⟩

/-- A prerelease that is read is spelt like this. -/
theorem spellsPrerelease_of_readPrerelease? {cs : List Char} {prerelease : List (List Char)}
    {afterNumber : Bool} (h : readPrerelease? cs = some prerelease)
    (hhead : afterNumber = true → ∀ c ∈ cs.head?, isDecimalDigit c = false) :
    SpellsPrerelease afterNumber cs prerelease := by
  unfold readPrerelease? at h
  split at h
  · cases h
    exact .none
  · next cs =>
    split at h
    · next tokens hread =>
      cases h
      obtain ⟨token, rest, rfl, rfl, hloose⟩ := joined_of_readTokens? hread
      exact .hyphen hloose
    · next hnone =>
      obtain ⟨token, rest, rfl, hcs, hloose⟩ := joined_of_readTokens? h
      obtain ⟨hfirst, hrest⟩ := List.forall_mem_cons.1 hloose
      cases token with
      | nil => cases hfirst
      | cons c token =>
        rw [List.cons_append] at hcs
        obtain ⟨rfl, rfl⟩ := List.cons.inj hcs
        -- Anything behind the hyphen would be an identifier without it.
        have hempty : token = [] := by
          by_contra hne
          have hread := readTokens?_loose
            (List.forall_mem_cons.2 ⟨isLooseToken_of_hyphen_cons hne hfirst, hrest⟩)
          rw [hread] at hnone
          cases hnone
        subst hempty
        exact .lone hrest
  · next hne hhyphen =>
    obtain ⟨token, rest, rfl, rfl, hloose⟩ := joined_of_readTokens? h
    cases token with
    | nil => cases hloose [] List.mem_cons_self
    | cons c token =>
      refine .bare hloose (fun heq => hhyphen (token ++ dotted '.' rest) (by rw [heq]; rfl)) ?_
      exact fun hnumber => hhead hnumber c rfl

theorem readSuffix?_eq_some {cs : List Char} {prerelease build : List (List Char)}
    (h : readSuffix? cs = some (prerelease, build)) :
    ∃ pre, cs = pre ++ dotted '+' build ∧ readPrerelease? pre = some prerelease ∧
      ∀ t ∈ build, isBuildToken t = true := by
  unfold readSuffix? at h
  obtain ⟨⟨pre, build'⟩, hbuild, h⟩ := Option.bind_eq_some_iff.1 h
  obtain ⟨prerelease', hpre, h⟩ := Option.bind_eq_some_iff.1 h
  cases h
  exact ⟨pre, (append_dotted_of_readBuild? hbuild).symm, hpre, isBuildToken_of_readBuild? hbuild⟩

/-- A number ends where no digit follows. -/
theorem Part.head_of_read? {cs ds rest : List Char} (h : read? cs = some (.digits ds, rest)) :
    ∀ c ∈ rest.head?, isDecimalDigit c = false := by
  cases cs with
  | nil => cases h
  | cons c cs =>
    rw [read?] at h
    split at h
    · cases h
    · split at h
      · cases h
        intro d hd
        have hhead := List.head?_dropWhile_not isDecimalDigit cs
        rw [Option.mem_def.1 hd] at hhead
        simpa using hhead
      · cases h

/-- The digits of a number that denotes a word. -/
theorem Part.spells_digits {ds : List Char} {value : Option UInt64}
    (h : (Part.digits ds).value? = some value) : Spells ds value := by
  obtain ⟨n, hn, rfl⟩ := Option.map_eq_some_iff.1 h
  obtain ⟨hfits, hvalue⟩ := readWord?_eq_some hn
  have hdigits : ∀ c ∈ ds, c.isDigit = true :=
    List.all_eq_true.1 (Bool.and_eq_true_iff.1 hfits).1
  have hne : ds ≠ [] := by
    rintro rfl
    cases hn
  exact .number hne hdigits hvalue.symm

/-- A part that is read is spelt like this. -/
theorem Part.spells_of_read? {cs rest : List Char} {part : Part} {value : Option UInt64}
    (h : read? cs = some (part, rest)) (hvalue : part.value? = some value) :
    ∃ front, cs = front ++ rest ∧ Spells front value ∧
      (value.isSome = true → ∀ c ∈ rest.head?, isDecimalDigit c = false) := by
  cases part with
  | digits ds => exact ⟨ds, (eq_append_of_read? h).1, spells_digits hvalue, fun _ => head_of_read? h⟩
  | wildcard =>
    cases hvalue
    cases cs with
    | nil => cases h
    | cons c cs =>
      rw [read?] at h
      split at h
      · next hwild =>
        cases h
        have hc : c = 'x' ∨ c = 'X' ∨ c = '*' := by
          simpa [or_assoc] using hwild
        exact ⟨[c], rfl, .wildcard hc, fun hvalued => Bool.noConfusion hvalued⟩
      · split at h <;> cases h

/-- Identifiers with dots between them are a prerelease behind a wildcard. -/
theorem exists_spellsPrerelease {token : List Char} {rest : List (List Char)}
    (h : ∀ t ∈ token :: rest, isLooseToken t = true) :
    ∃ prerelease, SpellsPrerelease false (token ++ dotted '.' rest) prerelease := by
  obtain ⟨hfirst, hrest⟩ := List.forall_mem_cons.1 h
  cases token with
  | nil => cases hfirst
  | cons c token =>
    by_cases hhyphen : c = '-'
    · subst hhyphen
      by_cases hempty : token = []
      · subst hempty
        exact ⟨_, .lone hrest⟩
      · have hloose := isLooseToken_of_hyphen_cons hempty hfirst
        exact ⟨_, .hyphen (List.forall_mem_cons.2 ⟨hloose, hrest⟩)⟩
    · exact ⟨_, .bare h hhyphen nofun⟩

/-- A number gives up its last digit only to a prerelease that would begin with a dot. -/
theorem spellsPrerelease_of_givenUp {d : Char} {rest : List Char} {prerelease build : List (List Char)}
    (hd : isDecimalDigit d = true) (hnone : readSuffix? rest = none)
    (h : readSuffix? (d :: rest) = some (prerelease, build)) :
    ∃ pre, d :: rest = pre ++ dotted '+' build ∧ SpellsPrerelease true pre prerelease ∧
      ∀ t ∈ build, isBuildToken t = true := by
  have hplus : d ≠ '+' := ne_of_isDecimalDigit hd (by decide)
  obtain ⟨pre, hcs, hpre, hbuild⟩ := readSuffix?_eq_some h
  refine ⟨pre, hcs, ?_, hbuild⟩
  cases pre with
  | nil =>
    cases build with
    | nil => cases hcs
    | cons => exact absurd (List.cons.inj hcs).1 hplus
  | cons c pre =>
    rw [List.cons_append] at hcs
    obtain ⟨rfl, rfl⟩ := List.cons.inj hcs
    rw [readPrerelease?_of_ne (ne_of_isDecimalDigit hd (by decide))] at hpre
    obtain ⟨token, rest, rfl, hjoined, hloose⟩ := joined_of_readTokens? hpre
    obtain ⟨hfirst, hrest⟩ := List.forall_mem_cons.1 hloose
    -- Without the digit the text is no prerelease.
    have hnot {shorter : List (List Char)} (hspells : SpellsPrerelease false pre shorter) : False := by
      rw [hspells.readSuffix? hbuild] at hnone
      cases hnone
    cases token with
    | nil => cases hfirst
    | cons c token =>
      rw [List.cons_append] at hjoined
      obtain ⟨rfl, rfl⟩ := List.cons.inj hjoined
      by_cases hempty : token = []
      · subst hempty
        refine .givenUp rfl hd ?_ hrest
        rintro rfl
        exact hnot .none
      · have hshort := isLooseToken_of_digit_cons hd hempty hfirst
        obtain ⟨shorter, hspells⟩ :=
          exists_spellsPrerelease (List.forall_mem_cons.2 ⟨hshort, hrest⟩)
        exact absurd hspells hnot

namespace PartialText

theorem spells_of_readPatch? {cs : List Char} {part : Part} {value : Option UInt64}
    {prerelease build : List (List Char)}
    (h : readPatch? cs = some (part, prerelease, build)) (hvalue : part.value? = some value) :
    ∃ front pre, cs = front ++ pre ++ dotted '+' build ∧ Part.Spells front value ∧
      SpellsPrerelease value.isSome pre prerelease ∧ ∀ t ∈ build, isBuildToken t = true := by
  unfold readPatch? at h
  obtain ⟨⟨read, rest⟩, hread, h⟩ := Option.bind_eq_some_iff.1 h
  dsimp only at h
  split at h
  · next hsuffix =>
    cases h
    obtain ⟨front, rfl, hfront, hhead⟩ := Part.spells_of_read? hread hvalue
    obtain ⟨pre, rfl, hpre, hbuild⟩ := readSuffix?_eq_some hsuffix
    refine ⟨front, pre, (List.append_assoc _ _ _).symm, hfront, ?_, hbuild⟩
    refine spellsPrerelease_of_readPrerelease? hpre fun hsome c hc => hhead hsome c ?_
    cases pre with
    | nil => cases hc
    | cons => exact hc
  · cases h
  · next ds hnone =>
    split at h
    · next d front last hfront hlast =>
      obtain ⟨suffix, hsuffix, heq⟩ := Option.map_eq_some_iff.1 h
      cases heq
      obtain ⟨rfl, hdigits⟩ := Part.eq_append_of_read? hread
      have hds : ds = d :: front ++ [last] := by
        rw [← hfront]
        exact (List.dropLast_append_getLast? last hlast).symm
      subst hds
      have hd : isDecimalDigit last = true := hdigits last (by simp)
      obtain ⟨pre, hcs, hpre, hbuild⟩ := spellsPrerelease_of_givenUp hd hnone hsuffix
      refine ⟨d :: front, pre, ?_, Part.spells_digits hvalue, ?_, hbuild⟩
      · rw [List.append_assoc, List.append_assoc, ← hcs]
        rfl
      · obtain ⟨n, -, rfl⟩ := Option.map_eq_some_iff.1 hvalue
        exact hpre
    · cases h

/-- What the parts denote together is made of what each denotes. -/
theorem parts_of_value? {t : PartialText} {p : Partial} (h : t.value? = some p) :
    ∃ a b c, t.major.value? = some a ∧ Part.optionalValue? t.minor = some b ∧
      Part.optionalValue? t.patch = some c ∧ p = .ofParts [a, b, c] t.prerelease t.build := by
  have hparts := h
  unfold value? at hparts
  obtain ⟨a, ha, hparts⟩ := Option.bind_eq_some_iff.1 hparts
  obtain ⟨b, hb, hparts⟩ := Option.bind_eq_some_iff.1 hparts
  obtain ⟨c, hc, -⟩ := Option.bind_eq_some_iff.1 hparts
  rw [value?_eq_ofParts ha hb hc] at h
  exact ⟨a, b, c, ha, hb, hc, (Option.some.inj h).symm⟩

/-- **What is read is spelt by the grammar.** -/
theorem spellsParts_of_ofParts? {cs : List Char} {t : PartialText} {p : Partial}
    (h : ofParts? cs = some t) (hvalue : t.value? = some p) : Partial.SpellsParts cs p := by
  obtain ⟨a, b, c, ha, hb, hc, rfl⟩ := parts_of_value? hvalue
  unfold ofParts? at h
  obtain ⟨⟨major, rest⟩, hmajor, h⟩ := Option.bind_eq_some_iff.1 h
  dsimp only at h
  split at h
  · cases h
    cases hb
    cases hc
    obtain ⟨front, rfl, hfront, -⟩ := Part.spells_of_read? hmajor ha
    have hone : Partial.ofParts [a, none, none] [] [] = .ofParts [a] [] [] := by cases a <;> rfl
    rw [List.append_nil, hone]
    exact .one hfront
  · obtain ⟨⟨minor, rest⟩, hminor, h⟩ := Option.bind_eq_some_iff.1 h
    dsimp only at h
    split at h
    · cases h
      cases hc
      obtain ⟨front, rfl, hfront, -⟩ := Part.spells_of_read? hmajor ha
      obtain ⟨front', rfl, hfront', -⟩ := Part.spells_of_read? hminor hb
      have htwo : Partial.ofParts [a, b, none] [] [] = .ofParts [a, b] [] [] := by
        cases a <;> cases b <;> rfl
      rw [List.append_nil, htwo]
      exact .two hfront hfront'
    · obtain ⟨⟨patch, prerelease, build⟩, hpatch, h⟩ := Option.bind_eq_some_iff.1 h
      cases h
      obtain ⟨front, rfl, hfront, -⟩ := Part.spells_of_read? hmajor ha
      obtain ⟨front', rfl, hfront', -⟩ := Part.spells_of_read? hminor hb
      obtain ⟨last, pre, rfl, hlast, hpre, hbuild⟩ := spells_of_readPatch? hpatch hc
      have hthree := Partial.SpellsParts.three hfront hfront' hlast hpre hbuild
      simpa only [List.append_assoc, List.cons_append] using hthree
    · cases h
  · cases h

end PartialText

namespace Partial

/-- The reader and the grammar agree on which texts are partial versions, and of which one. -/
theorem spellsParts_iff {cs : List Char} {p : Partial} :
    SpellsParts cs p ↔ ∃ t : PartialText, PartialText.ofParts? cs = some t ∧ t.value? = some p :=
  ⟨SpellsParts.ofParts?, fun ⟨_, ht, hvalue⟩ => PartialText.spellsParts_of_ofParts? ht hvalue⟩

end Partial

end DepSpec
