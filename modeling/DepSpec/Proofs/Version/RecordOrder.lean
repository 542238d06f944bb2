import DepSpec.Proofs.Text.ByteOrder
import DepSpec.Proofs.Version.StrictForm
import DepSpec.Version.Precedence
import Mathlib.Algebra.Group.Nat.Defs

set_option autoImplicit false

/-! # The order of version records

Records are compared without the texts that they were read from, by the kinds that they hold. An
identifier is recorded as a number if it is all digits and fits a word. A longer run of digits is
recorded as text, so that it counts as an alphanumeric identifier: above all numbers, and by its
bytes among the other texts. The main statement gives the order of records in these terms for all
strict versions, and says when it is their precedence: unless the identifiers in which two versions
differ first clash (`StrictText.clash`). -/

namespace DepSpec

open Text

namespace StrictText

/-! ## What the order of records is compared with -/

/-- The precedence of identifiers if those of a class are numbers: by their value and before the
    others, the others by their characters. -/
def compareTokensBy (isNumber : List Char → Bool) (s t : List Char) : Ordering :=
  match isNumber s, isNumber t with
  | true, true => compare (numeralValue s) (numeralValue t)
  | true, false => .lt
  | false, true => .gt
  | false, false => List.compareLex compare s t

/-- The precedence of strict versions if the identifiers of a class are numbers. -/
def precedenceBy (isNumber : List Char → Bool) (t u : StrictText) : Ordering :=
  (compare (numeralValue t.major) (numeralValue u.major)).then <|
    (compare (numeralValue t.minor) (numeralValue u.minor)).then <|
      (compare (numeralValue t.patch) (numeralValue u.patch)).then <|
        comparePrereleases (compareTokensBy isNumber) t.prerelease u.prerelease

/-- An all-digit identifier that fits a word. -/
def fitsWord (token : List Char) : Bool :=
  token.all Char.isDigit && decide (numeralValue token < 2 ^ 64)

/-- An all-digit identifier that fits no word. -/
def isWide (token : List Char) : Bool :=
  token.all Char.isDigit && decide (2 ^ 64 ≤ numeralValue token)

/-- Whether one identifier is wide and the other is no number that fits a word. Wide identifiers of
    one length are in the same order as their values and do not clash. -/
def clash (s t : List Char) : Bool :=
  if isWide s && isWide t then s.length != t.length
  else (isWide s && !t.all Char.isDigit) || (!s.all Char.isDigit && isWide t)

/-- Whether the first identifiers in which two prereleases differ clash. -/
def clashFirst : List (List Char) → List (List Char) → Bool
  | s :: ids, t :: others => if s = t then clashFirst ids others else clash s t
  | _, _ => false

/-- Whether two versions with the same numbers differ first in identifiers that clash. -/
def clashes (t u : StrictText) : Bool :=
  numeralValue t.major == numeralValue u.major && numeralValue t.minor == numeralValue u.minor &&
    numeralValue t.patch == numeralValue u.patch && clashFirst t.prerelease u.prerelease

/-- A text that is put together from these pieces, blanks around it and a `v` in front aside. -/
structure Spells (t : StrictText) (text : String) : Prop where
  tokens : t.HasTokens
  chars : t.chars = dropV (trim text.toList)

/-! ## Numerals -/

/-- There are three kinds of identifiers: numerals that fit a word, wide ones, and the others. -/
theorem kind_of_token (token : List Char) :
    (fitsWord token = true ∧ isWide token = false ∧ token.all Char.isDigit = true ∧
        numeralValue token < 2 ^ 64) ∨
      (fitsWord token = false ∧ isWide token = true ∧ token.all Char.isDigit = true ∧
        2 ^ 64 ≤ numeralValue token) ∨
      (fitsWord token = false ∧ isWide token = false ∧ token.all Char.isDigit = false) := by
  unfold fitsWord isWide
  cases token.all Char.isDigit with
  | false => exact Or.inr (Or.inr ⟨rfl, rfl, rfl⟩)
  | true =>
    rcases Nat.lt_or_ge (numeralValue token) (2 ^ 64) with hlt | hge
    · exact Or.inl ⟨decide_eq_true hlt, decide_eq_false (Nat.not_le.2 hlt), rfl, hlt⟩
    · exact Or.inr (Or.inl ⟨decide_eq_false (Nat.not_lt.2 hge), decide_eq_true hge, rfl, hge⟩)

theorem readWord?_of_fitsWord {token : List Char} (hne : token ≠ []) (h : fitsWord token = true) :
    ∃ n, readWord? token = some n ∧ n.toNat = numeralValue token := by
  rw [fitsWord, Bool.and_eq_true, decide_eq_true_eq] at h
  obtain ⟨hdigits, hlt⟩ := h
  refine ⟨UInt64.ofNat (numeralValue token), ?_, UInt64.toNat_ofNat_of_lt' hlt⟩
  have hsize : numeralValue token < UInt64.size := hlt
  rw [readWord?, readNat?, hdigits, List.isEmpty_eq_false_iff.2 hne]
  exact if_pos hsize

theorem readWord?_eq_some {token : List Char} {n : UInt64} (h : readWord? token = some n) :
    fitsWord token = true ∧ n.toNat = numeralValue token := by
  unfold readWord? readNat? at h
  split at h
  · next hdigits =>
    obtain ⟨-, hdigits⟩ := Bool.and_eq_true_iff.1 hdigits
    rw [Option.bind_some, toWord?] at h
    split at h
    · next hlt =>
      cases h
      refine ⟨?_, UInt64.toNat_ofNat_of_lt' hlt⟩
      rw [fitsWord, hdigits, Bool.true_and, decide_eq_true_eq]
      exact hlt
    · cases h
  · cases h

theorem compare_readWord? {s t : List Char} {m n : UInt64} (hm : readWord? s = some m)
    (hn : readWord? t = some n) : compare m n = compare (numeralValue s) (numeralValue t) := by
  rw [compare_word, (readWord?_eq_some hm).2, (readWord?_eq_some hn).2]

theorem numeralValue_cons (c : Char) (cs : List Char) :
    numeralValue (c :: cs) = 10 ^ cs.length * (c.toNat - 48) + numeralValue cs := by
  rw [numeralValue, Nat.ofDigitChars_cons, Nat.mul_zero, Nat.zero_add,
    Nat.ofDigitChars_eq_ofDigitChars_zero]
  rfl

theorem numeralValue_lt {cs : List Char} (h : ∀ c ∈ cs, c.isDigit = true) :
    numeralValue cs < 10 ^ cs.length := by
  induction cs with
  | nil => exact Nat.one_pos
  | cons c cs ih =>
    rw [List.forall_mem_cons] at h
    have hdigit : c.toNat - 48 ≤ 9 := by
      have := toNat_of_isDigit h.1
      omega
    have hfirst := Nat.mul_le_mul_left (10 ^ cs.length) hdigit
    have hrest := ih h.2
    rw [numeralValue_cons, List.length_cons, Nat.pow_succ]
    omega

/-- Numerals of one length are in the order of their values. -/
theorem compareLex_digits {s t : List Char} (hs : ∀ c ∈ s, c.isDigit = true)
    (ht : ∀ c ∈ t, c.isDigit = true) (hlength : s.length = t.length) :
    List.compareLex compare s t = compare (numeralValue s) (numeralValue t) := by
  induction s generalizing t with
  | nil =>
    rw [List.length_eq_zero_iff.1 hlength.symm]
    rfl
  | cons c cs ih =>
    obtain ⟨d, ds, rfl⟩ : ∃ d ds, t = d :: ds :=
      List.exists_cons_of_length_pos (by rw [← hlength]; exact Nat.succ_pos _)
    rw [List.forall_mem_cons] at hs ht
    have hlen : cs.length = ds.length := Nat.succ.inj hlength
    have hdigit : compare c d = compare (c.toNat - 48) (d.toNat - 48) := by
      rw [compare_char, ← compare_add_left 48 (c.toNat - 48),
        Nat.add_sub_cancel' (toNat_of_isDigit hs.1).1, Nat.add_sub_cancel' (toNat_of_isDigit ht.1).1]
    -- The first digit is the quotient by a power of ten, and the other digits are the remainder.
    have hcs := numeralValue_lt hs.2
    have hds := numeralValue_lt ht.2
    have hpos : 0 < 10 ^ ds.length := Nat.pow_pos (by decide)
    rw [hlen] at hcs
    rw [List.compareLex_cons_cons, ih hs.2 ht.2 hlen, hdigit, numeralValue_cons, numeralValue_cons,
      hlen, compare_div_mod (10 ^ ds.length * (c.toNat - 48) + _) _ (10 ^ ds.length),
      Nat.mul_add_div hpos, Nat.mul_add_div hpos, Nat.mul_add_mod, Nat.mul_add_mod,
      Nat.div_eq_of_lt hcs, Nat.div_eq_of_lt hds, Nat.mod_eq_of_lt hcs, Nat.mod_eq_of_lt hds]
    rfl

/-- Of numerals without leading zeros the longer one is larger. -/
theorem numeralValue_lt_of_length_lt {s t : List Char} (hs : ∀ c ∈ s, c.isDigit = true)
    (hne : s ≠ []) (ht : isCanonicalNumber t = true) (hlength : s.length < t.length) :
    numeralValue s < numeralValue t := by
  have hpos := List.length_pos_of_ne_nil hne
  cases t with
  | nil => cases ht
  | cons d ds =>
    simp only [isCanonicalNumber, Bool.or_eq_true, Bool.and_eq_true, beq_iff_eq, List.isEmpty_iff,
      decide_eq_true_eq] at ht
    rcases ht with ⟨-, rfl⟩ | ⟨⟨hlow, -⟩, -⟩
    · rw [List.length_singleton] at hlength
      omega
    · have hd : 49 ≤ d.toNat := hlow
      calc numeralValue s < 10 ^ s.length := numeralValue_lt hs
        _ ≤ 10 ^ ds.length := Nat.pow_le_pow_right (by decide) (Nat.le_of_lt_succ hlength)
        _ ≤ 10 ^ ds.length * (d.toNat - 48) := Nat.le_mul_of_pos_right _ (by omega)
        _ ≤ numeralValue (d :: ds) := by
          rw [numeralValue_cons]
          exact Nat.le_add_right _ _

/-- An identifier that is all digits is a numeral without leading zeros. -/
theorem isCanonicalNumber_of_isDigit {token : List Char} (h : isStrictToken token = true)
    (hdigits : ∀ c ∈ token, c.isDigit = true) : isCanonicalNumber token = true := by
  rw [isStrictToken, Bool.or_eq_true] at h
  refine h.resolve_right ?_
  have hdrop : token.dropWhile isDecimalDigit = [] :=
    List.dropWhile_eq_nil_iff.2 fun c hc => isDecimalDigit_of_isDigit (hdigits c hc)
  rw [isAlphanumericToken, hdrop]
  exact Bool.false_ne_true

/-! ## Identifiers -/

theorem precedence_ofToken {s t : List Char} (hs : s ≠ []) (ht : t ≠ []) :
    (PrereleaseId.ofToken (String.ofList s)).precedence (PrereleaseId.ofToken (String.ofList t)) =
      compareTokensBy fitsWord s t := by
  have htext {token : List Char} (hword : readWord? token = none) (hne : token ≠ []) :
      fitsWord token = false := by
    by_contra hfits
    obtain ⟨n, hn, -⟩ := readWord?_of_fitsWord hne (by simpa using hfits)
    rw [hword] at hn
    cases hn
  unfold compareTokensBy PrereleaseId.ofToken
  rw [String.toList_ofList, String.toList_ofList]
  cases hm : readWord? s with
  | some m =>
    rw [(readWord?_eq_some hm).1]
    cases hn : readWord? t with
    | some n =>
      rw [(readWord?_eq_some hn).1]
      exact compare_readWord? hm hn
    | none =>
      rw [htext hn ht]
      rfl
  | none =>
    rw [htext hm hs]
    cases hn : readWord? t with
    | some n =>
      rw [(readWord?_eq_some hn).1]
      rfl
    | none =>
      rw [htext hn ht]
      simp only [PrereleaseId.precedence, compareBytes, String.toList_ofList]
      exact compareLex_encodeText s t

/-- Identifiers that do not clash are in the order of the precedence. -/
theorem compareTokensBy_fitsWord {s t : List Char} (h : clash s t = false) :
    compareTokensBy fitsWord s t = compareTokens s t := by
  unfold compareTokensBy compareTokens
  rcases kind_of_token s with ⟨hs, -, hsall, hsmall⟩ | ⟨hs, hswide, hsall, hslarge⟩ |
      ⟨hs, hswide, hsall⟩ <;>
    rcases kind_of_token t with ⟨ht, -, htall, htsmall⟩ | ⟨ht, htwide, htall, htlarge⟩ |
      ⟨ht, htwide, htall⟩ <;>
    simp only [hs, hsall, ht, htall]
  -- A numeral that fits a word is below all wide ones.
  · exact (Nat.compare_eq_lt.2 (Nat.lt_of_lt_of_le hsmall htlarge)).symm
  · exact (Nat.compare_eq_gt.2 (Nat.lt_of_lt_of_le htsmall hslarge)).symm
  · have hlength : s.length = t.length := by simpa [clash, hswide, htwide] using h
    exact compareLex_digits (List.all_eq_true.1 hsall) (List.all_eq_true.1 htall) hlength
  -- A wide identifier clashes with those that are not all digits.
  · simp [clash, hswide, htwide, htall] at h
  · simp [clash, hswide, htwide, hsall] at h

/-- The precedence tells all identifiers of the grammar apart. -/
theorem eq_of_compareTokens {s t : List Char} (hs : isStrictToken s = true)
    (ht : isStrictToken t = true) (h : compareTokens s t = .eq) : s = t := by
  have hne {token : List Char} (htoken : isCanonicalNumber token = true) : token ≠ [] := by
    rintro rfl
    cases htoken
  unfold compareTokens at h
  split at h
  · next hsall htall =>
    have hsdigits := List.all_eq_true.1 hsall
    have htdigits := List.all_eq_true.1 htall
    have hscan := isCanonicalNumber_of_isDigit hs hsdigits
    have htcan := isCanonicalNumber_of_isDigit ht htdigits
    have hvalue := Nat.compare_eq_eq.1 h
    rcases Nat.lt_trichotomy s.length t.length with hlt | hlength | hgt
    · exact absurd hvalue
        (Nat.ne_of_lt (numeralValue_lt_of_length_lt hsdigits (hne hscan) htcan hlt))
    · rw [← compareLex_digits hsdigits htdigits hlength] at h
      exact Std.LawfulEqCmp.eq_of_compare h
    · exact absurd hvalue.symm
        (Nat.ne_of_lt (numeralValue_lt_of_length_lt htdigits (hne htcan) hscan hgt))
  · cases h
  · cases h
  · exact Std.LawfulEqCmp.eq_of_compare h

/-! ## Prereleases -/

theorem compareLex_map {α β : Type} {f : α → β} {cmp : β → β → Ordering}
    {cmp' : α → α → Ordering} {ids others : List α}
    (h : ∀ s ∈ ids, ∀ t ∈ others, cmp (f s) (f t) = cmp' s t) :
    List.compareLex cmp (ids.map f) (others.map f) = List.compareLex cmp' ids others := by
  induction ids generalizing others with
  | nil => cases others <;> rfl
  | cons s ids ih =>
    cases others with
    | nil => rfl
    | cons t others =>
      rw [List.map_cons, List.map_cons, List.compareLex_cons_cons, List.compareLex_cons_cons,
        h s List.mem_cons_self t List.mem_cons_self,
        ih fun s hs t ht => h s (List.mem_cons_of_mem _ hs) t (List.mem_cons_of_mem _ ht)]

theorem compareTokensBy_self (isNumber : List Char → Bool) (s : List Char) :
    compareTokensBy isNumber s s = .eq := by
  unfold compareTokensBy
  cases isNumber s with
  | true => exact Nat.compare_eq_eq.2 rfl
  | false => exact Std.ReflCmp.compare_self

/-- Prereleases whose first difference is no clash are in the order of the precedence. -/
theorem compareLex_fitsWord {ids others : List (List Char)}
    (hids : ∀ s ∈ ids, isStrictToken s = true) (hothers : ∀ t ∈ others, isStrictToken t = true)
    (h : clashFirst ids others = false) :
    List.compareLex (compareTokensBy fitsWord) ids others =
      List.compareLex compareTokens ids others := by
  induction ids generalizing others with
  | nil => cases others <;> rfl
  | cons s ids ih =>
    cases others with
    | nil => rfl
    | cons t others =>
      rw [List.forall_mem_cons] at hids hothers
      rw [List.compareLex_cons_cons, List.compareLex_cons_cons]
      rw [clashFirst] at h
      split at h
      · next heq =>
        have hself : compareTokens s s = .eq := compareTokensBy_self (·.all Char.isDigit) s
        rw [← heq, compareTokensBy_self, hself, ih hids.2 hothers.2 h]
      · next hne =>
        rw [compareTokensBy_fitsWord h]
        cases hcmp : compareTokens s t with
        | eq => exact absurd (eq_of_compareTokens hids.1 hothers.1 hcmp) hne
        | lt | gt => rfl

theorem comparePrereleases_congr {α β : Type} {cmp : α → α → Ordering} {cmp' : β → β → Ordering}
    {ids others : List α} {ids' others' : List β} (hids : ids = [] ↔ ids' = [])
    (hothers : others = [] ↔ others' = [])
    (h : List.compareLex cmp ids others = List.compareLex cmp' ids' others') :
    comparePrereleases cmp ids others = comparePrereleases cmp' ids' others' := by
  cases ids <;> cases ids' <;> cases others <;> cases others' <;>
    simp_all [comparePrereleases]

/-! ## Versions -/

/-- **The order of records** is the precedence of their texts if only the numerals that fit a word
    are numbers. -/
theorem precedence_value? {t u : StrictText} (ht : t.HasTokens) (hu : u.HasTokens)
    {v w : VersionRecord} (hv : t.value? = some v) (hw : u.value? = some w) :
    v.precedence w = t.precedenceBy fitsWord u := by
  have hne {token : List Char} (htoken : isStrictToken token = true) : token ≠ [] := by
    rintro rfl
    cases htoken
  unfold value? at hv hw
  obtain ⟨major, hmajor, hv⟩ := Option.bind_eq_some_iff.1 hv
  obtain ⟨minor, hminor, hv⟩ := Option.bind_eq_some_iff.1 hv
  obtain ⟨patch, hpatch, hv⟩ := Option.bind_eq_some_iff.1 hv
  obtain ⟨major', hmajor', hw⟩ := Option.bind_eq_some_iff.1 hw
  obtain ⟨minor', hminor', hw⟩ := Option.bind_eq_some_iff.1 hw
  obtain ⟨patch', hpatch', hw⟩ := Option.bind_eq_some_iff.1 hw
  cases hv
  cases hw
  rw [VersionRecord.precedence, precedenceBy, compare_readWord? hmajor hmajor',
    compare_readWord? hminor hminor', compare_readWord? hpatch hpatch']
  congr 3
  refine comparePrereleases_congr List.map_eq_nil_iff List.map_eq_nil_iff (compareLex_map ?_)
  intro s hs t ht'
  exact precedence_ofToken (hne (ht.prerelease s hs)) (hne (hu.prerelease t ht'))

/-- Versions that do not clash are in the order of their precedence. -/
theorem precedenceBy_fitsWord {t u : StrictText} (ht : t.HasTokens) (hu : u.HasTokens)
    (h : t.clashes u = false) : t.precedenceBy fitsWord u = t.precedence u := by
  unfold precedenceBy precedence
  -- The prereleases count only where all three numbers agree.
  cases hmajor : compare (numeralValue t.major) (numeralValue u.major) with
  | lt | gt => rfl
  | eq =>
    cases hminor : compare (numeralValue t.minor) (numeralValue u.minor) with
    | lt | gt => rfl
    | eq =>
      cases hpatch : compare (numeralValue t.patch) (numeralValue u.patch) with
      | lt | gt => rfl
      | eq =>
        rw [clashes, Nat.compare_eq_eq.1 hmajor, Nat.compare_eq_eq.1 hminor,
          Nat.compare_eq_eq.1 hpatch] at h
        simp only [beq_self_eq_true, Bool.true_and] at h
        exact comparePrereleases_congr Iff.rfl Iff.rfl
          (compareLex_fitsWord ht.prerelease hu.prerelease h)

end StrictText

namespace VersionRecord

open StrictText

/-- A strict version has pieces, and they denote it. -/
theorem exists_spells_of_parse {text : String} {v : VersionRecord} (h : parse text = .ok v) :
    ∃ t : StrictText, t.Spells text ∧ t.value? = some v := by
  obtain ⟨t, ht, hvalue⟩ := parse_eq_ok h
  obtain ⟨hchars, htokens⟩ := chars_of_ofChars? ht
  exact ⟨t, ⟨htokens, hchars⟩, hvalue⟩

/-- The strict grammar reads the pieces that a text is put together from, and no others. -/
theorem value?_of_parse {text : String} {v : VersionRecord} (h : parse text = .ok v)
    {t : StrictText} (ht : t.Spells text) : t.value? = some v := by
  obtain ⟨u, hu, hvalue⟩ := parse_eq_ok h
  rw [← ht.chars, ht.tokens.ofChars?_chars] at hu
  cases hu
  exact hvalue

/-- **Records are in the order of their texts, up to clashes.** Two strict versions have pieces. The
    order of their records is the precedence of the pieces in which only the numerals that fit a word
    are numbers. That is the precedence, unless the versions have the same numbers and the first
    identifiers in which they differ clash. -/
theorem precedence_of_parse {text other : String} {v w : VersionRecord} (hv : parse text = .ok v)
    (hw : parse other = .ok w) :
    (∃ t : StrictText, t.Spells text) ∧ (∃ u : StrictText, u.Spells other) ∧
      ∀ t u : StrictText, t.Spells text → u.Spells other →
        v.precedence w = t.precedenceBy fitsWord u ∧
          (t.clashes u = false → v.precedence w = t.precedence u) := by
  obtain ⟨t, ht, -⟩ := exists_spells_of_parse hv
  obtain ⟨u, hu, -⟩ := exists_spells_of_parse hw
  refine ⟨⟨t, ht⟩, ⟨u, hu⟩, fun t u ht hu => ?_⟩
  have horder := precedence_value? ht.tokens hu.tokens (value?_of_parse hv ht)
    (value?_of_parse hw hu)
  exact ⟨horder, fun h => horder.trans (precedenceBy_fitsWord ht.tokens hu.tokens h)⟩

/-- The pieces of `1.0.0-` and a numeral. -/
def candidate (numeral : String) : StrictText where
  major := ['1']
  minor := ['0']
  patch := ['0']
  prerelease := [numeral.toList]
  build := []

/-- A wide identifier does not clash with one that fits a word: the larger number comes last. -/
theorem wide_candidate_follows :
    ∃ v w, parse "1.0.0-18446744073709551616" = .ok v ∧ parse " v1.0.0-7 " = .ok w ∧
      (candidate "18446744073709551616").Spells "1.0.0-18446744073709551616" ∧
      (candidate "7").Spells " v1.0.0-7 " ∧
      (candidate "18446744073709551616").clashes (candidate "7") = false ∧
      v.precedence w = (candidate "18446744073709551616").precedence (candidate "7") ∧
      v.precedence w = .gt := by
  have ht : (candidate "18446744073709551616").Spells "1.0.0-18446744073709551616" :=
    ⟨⟨rfl, rfl, rfl, by decide, by decide⟩, rfl⟩
  have hu : (candidate "7").Spells " v1.0.0-7 " := ⟨⟨rfl, rfl, rfl, by decide, by decide⟩, rfl⟩
  have hclash : (candidate "18446744073709551616").clashes (candidate "7") = false := by decide
  obtain ⟨-, -, horder⟩ :=
    @precedence_of_parse "1.0.0-18446744073709551616" " v1.0.0-7 " _ _ rfl rfl
  exact ⟨_, _, rfl, rfl, ht, hu, hclash, (horder _ _ ht hu).2 hclash, rfl⟩

/-- Two wide identifiers of different lengths clash: the record of the larger number comes first. -/
theorem wide_candidates_clash :
    ∃ v w, parse "1.0.0-99999999999999999999" = .ok v ∧
      parse "1.0.0-100000000000000000000" = .ok w ∧
      (candidate "99999999999999999999").Spells "1.0.0-99999999999999999999" ∧
      (candidate "100000000000000000000").Spells "1.0.0-100000000000000000000" ∧
      v.precedence w = .gt ∧
      (candidate "99999999999999999999").precedence (candidate "100000000000000000000") = .lt :=
  ⟨_, _, rfl, rfl, ⟨⟨rfl, rfl, rfl, by decide, by decide⟩, rfl⟩,
    ⟨⟨rfl, rfl, rfl, by decide, by decide⟩, rfl⟩, by decide, by decide⟩

end VersionRecord

end DepSpec
