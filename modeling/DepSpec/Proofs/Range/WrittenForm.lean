import DepSpec.Proofs.Range.Disjunction
import DepSpec.Proofs.Range.LooseVersions
import DepSpec.Proofs.Range.Vocabulary
import DepSpec.Range.Text

set_option autoImplicit false

/-! # The text of ranges

A range that is read is the range of its own text: writing it and reading it again changes nothing,
the kinds of identifiers included. The text is a list of words, which the reader takes apart as they
were put together, because no word ends with an operator, begins with a hyphen or holds a blank or a
bar (`IsClauseWord`). Each word is read as the clause that it was written for
(`Clause.IsKnown.read?_chars`). -/

namespace DepSpec

open Text

/-! ## Cutting a written range -/

theorem splitBars_piece {piece : List Char} (h : '|' ∉ piece) (rest : List Char) :
    splitBars (piece ++ '|' :: '|' :: rest) = piece :: splitBars rest := by
  rw [splitBars_append fun hlast => h (List.mem_of_getLast? hlast), splitBars_of_not_mem h]
  rfl

/-- A character of a comparator: of an operator or a version. -/
def IsTermChar (c : Char) : Prop := isOperatorChar c = true ∨ isVersionChar c = true

theorem IsTermChar.isBlank_eq_false {c : Char} (h : IsTermChar c) : isBlank c = false := by
  rcases h with hop | hversion
  · exact Text.isBlank_eq_false (by decide) hop
  · exact isBlank_of_isVersionChar hversion

theorem IsTermChar.ne_bar {c : Char} (h : IsTermChar c) : c ≠ '|' := by
  rintro rfl
  rcases h with hop | hversion
  · exact absurd hop (by decide)
  · exact absurd hversion (by decide)

/-- A word of a written range: operators and characters of a version, of which one ends it. It
    begins with no hyphen and no lead character. -/
structure IsClauseWord (word : List Char) : Prop where
  head : ∃ c rest, word = c :: rest ∧ c ≠ '-' ∧ PartialText.isLead c = false
  last : ∃ front c, word = front ++ [c] ∧ isVersionChar c = true
  chars : ∀ c ∈ word, isOperatorChar c = true ∨ isVersionChar c = true

namespace IsClauseWord

variable {word : List Char}

theorem isBlank_eq_false (h : IsClauseWord word) : ∀ c ∈ word, isBlank c = false :=
  fun c hc => IsTermChar.isBlank_eq_false (h.chars c hc)

theorem ne_nil (h : IsClauseWord word) : word ≠ [] := by
  obtain ⟨c, rest, rfl, -⟩ := h.head
  exact List.cons_ne_nil c rest

theorem closeUp_append (h : IsClauseWord word) (joined : Bool) (rest : List Char) :
    closeUp joined (word ++ rest) = word ++ closeUp false rest := by
  obtain ⟨front, c, rfl, hc⟩ := h.last
  have hfront : ∀ d ∈ front, isBlank d = false :=
    fun d hd => h.isBlank_eq_false d (List.mem_append_left _ hd)
  rw [List.append_assoc, List.singleton_append,
    closeUp_word hfront (isBlank_of_isVersionChar hc), isOperatorChar_of_isVersionChar hc]
  simp

end IsClauseWord

/-! ## Words -/

theorem closeUp_intercalate {ws : List (List Char)} (h : ∀ w ∈ ws, IsClauseWord w) :
    closeUp false ([' '].intercalate ws) = [' '].intercalate ws := by
  induction ws with
  | nil => rfl
  | cons w ws ih =>
    have hw := h w List.mem_cons_self
    have hrest := ih fun w' hw' => h w' (List.mem_cons_of_mem w hw')
    cases ws with
    | nil =>
      have hword := hw.closeUp_append false []
      rw [List.append_nil, closeUp, List.append_nil] at hword
      rw [List.intercalate_singleton]
      exact hword
    | cons w' ws =>
      rw [List.intercalate_cons_cons, List.append_assoc, hw.closeUp_append, List.singleton_append,
        closeUp, Bool.false_and, if_neg Bool.false_ne_true]
      exact congrArg (w ++ ' ' :: ·) hrest

/-- Words with blanks between them are cut apart again. -/
theorem words_intercalate {ws : List (List Char)} (hne : ∀ w ∈ ws, w ≠ [])
    (hblank : ∀ w ∈ ws, ∀ c ∈ w, isBlank c = false) : words ([' '].intercalate ws) = ws := by
  induction ws with
  | nil => rfl
  | cons w ws ih =>
    have hw := hblank w List.mem_cons_self
    have hrest := ih (fun w' hw' => hne w' (List.mem_cons_of_mem w hw'))
      fun w' hw' => hblank w' (List.mem_cons_of_mem w hw')
    have hkept : (!w.isEmpty) = true := by simp [hne w List.mem_cons_self]
    cases ws with
    | nil =>
      rw [List.intercalate_singleton, words, splitWhere_of_not_mem hw, List.filter_singleton, hkept]
      rfl
    | cons w' ws =>
      rw [List.intercalate_cons_cons, List.append_assoc, List.singleton_append, words,
        splitWhere_piece hw (by decide), List.filter_cons, hkept]
      exact congrArg (w :: ·) hrest

/-- Behind its first word a text of such words goes on with no hyphen. -/
theorem readHyphen?_intercalate {ws : List (List Char)} (h : ∀ w ∈ ws, IsClauseWord w) :
    readHyphen? ([' '].intercalate ws) = none := by
  have hsolid {w : List Char} (hw : IsClauseWord w) : ∀ c ∈ w, (!isBlank c) = true := by
    intro c hc
    rw [hw.isBlank_eq_false c hc]
    rfl
  cases ws with
  | nil => rfl
  | cons w ws =>
    have hw := hsolid (h w List.mem_cons_self)
    obtain ⟨c, rest, rfl, -, hlead⟩ := (h w List.mem_cons_self).head
    cases ws with
    | nil =>
      rw [List.intercalate_singleton, readHyphen?, List.dropWhile_cons, hlead,
        if_neg Bool.false_ne_true, List.dropWhile_eq_nil_iff.2 hw]
      cases PartialText.ofParts? ((c :: rest).takeWhile fun c => !isBlank c) <;> rfl
    | cons w' ws =>
      have hw' := h w' (List.mem_cons_of_mem _ List.mem_cons_self)
      obtain ⟨d, rest', rfl, hhyphen, -⟩ := hw'.head
      obtain ⟨tail, htail⟩ : ∃ tail, [' '].intercalate ((d :: rest') :: ws) = d :: tail := by
        cases ws with
        | nil => exact ⟨rest', List.intercalate_singleton⟩
        | cons => exact ⟨_, List.intercalate_cons_cons⟩
      have hd := hw'.isBlank_eq_false d List.mem_cons_self
      have hbehind : (((c :: rest) ++ ' ' :: d :: tail).dropWhile fun c => !isBlank c).dropWhile
          isBlank = d :: tail := by
        rw [List.dropWhile_append_of_pos hw, List.dropWhile_cons, if_neg (by decide),
          List.dropWhile_cons, if_pos (by decide), List.dropWhile_cons, hd,
          if_neg Bool.false_ne_true]
      rw [List.intercalate_cons_cons, List.append_assoc, List.singleton_append, htail, readHyphen?,
        List.cons_append, List.dropWhile_cons, hlead, if_neg Bool.false_ne_true, ← List.cons_append,
        hbehind]
      cases PartialText.ofParts? (((c :: rest) ++ ' ' :: d :: tail).takeWhile fun c => !isBlank c) with
      | none => rfl
      | some lower =>
        -- A hyphen would have to be the second word.
        rw [Option.bind_eq_bind, Option.bind_some]
        split
        · next heq =>
          cases heq
          exact absurd rfl hhyphen
        · rfl

/-! ## Clauses -/

namespace Version

/-- The text of a version begins with a digit. -/
theorem chars_eq_cons (v : Version) :
    ∃ d rest, v.record.chars = d :: rest ∧ d.isDigit = true := by
  obtain ⟨d, ds, hmajor, hd, -⟩ := writeWord_eq_cons v.major
  refine ⟨d, ds ++ ('.' :: writeWord v.minor ++ ('.' :: writeWord v.patch ++
    (dotted '-' (v.record.prerelease.map PrereleaseId.token) ++
      dotted '+' (v.record.build.map String.toList)))), ?_, hd⟩
  simp [VersionRecord.chars, record, hmajor]

theorem IsLoose.isVersionChar_chars {v : Version} (h : v.IsLoose) :
    ∀ c ∈ v.record.chars, isVersionChar c = true :=
  PartialText.isVersionChar_of_ofParts? h.ofParts?_chars

theorem IsLoose.ofChars?_chars {v : Version} (h : v.IsLoose) :
    PartialText.ofChars? v.record.chars = some v.partialText := by
  obtain ⟨d, rest, hchars, hd⟩ := v.chars_eq_cons
  have hdrop : v.record.chars.dropWhile PartialText.isLead = v.record.chars := by
    rw [hchars, List.dropWhile_cons, isLead_eq_false_of_isDecimalDigit (isDecimalDigit_of_isDigit hd)]
    rfl
  rw [PartialText.ofChars?, hdrop, h.ofParts?_chars]

end Version

/-- The operator in front of a digit is read as it is written. -/
theorem Term.read?_symbol (op : Operator) {d : Char} (hd : d.isDigit = true) (rest : List Char) :
    read? (op.symbol.toList ++ d :: rest) =
      (PartialText.ofChars? (d :: rest)).map (.compare op) := by
  have hop : isOperatorChar d = false :=
    isOperatorChar_of_isVersionChar (isVersionChar_of_isDecimalDigit (isDecimalDigit_of_isDigit hd))
  have heq : d ≠ '=' := ne_of_isDigit hd rfl
  refine read?_symbols (by cases op <;> decide) ?_ fun _ => by simpa using heq
  rintro c ⟨⟩
  exact Or.inr hop

/-- **A clause reads back from its text.** -/
theorem Clause.IsKnown.read?_chars {c : Clause} (h : c.IsKnown) :
    ∃ t, Term.read? c.chars = some t ∧ t.clauses? = some [c] := by
  cases h with
  | any => exact ⟨.compare .eq { major := .wildcard }, rfl, rfl⟩
  | @compare op v hv =>
    obtain ⟨d, rest, hchars, hd⟩ := v.chars_eq_cons
    refine ⟨.compare op v.partialText, ?_, ?_⟩
    · show Term.read? (op.symbol.toList ++ v.record.chars) = _
      rw [hchars, Term.read?_symbol op hd, ← hchars, hv.ofChars?_chars]
      rfl
    · rw [Term.clauses?, hv.value?_partialText]
      rfl

theorem Operator.isOperatorChar_of_mem_symbol {op : Operator} {c : Char}
    (h : c ∈ op.symbol.toList) : isOperatorChar c = true := by
  cases op <;> simp [symbol] at h <;> rcases h with rfl | rfl <;> decide

theorem Clause.IsKnown.isClauseWord {c : Clause} (h : c.IsKnown) : IsClauseWord c.chars := by
  cases h with
  | any =>
    exact ⟨⟨'*', [], rfl, by decide, by decide⟩, ⟨[], '*', rfl, by decide⟩,
      List.forall_mem_singleton.2 (Or.inr rfl)⟩
  | @compare op v hv =>
    obtain ⟨d, rest, hchars, hd⟩ := v.chars_eq_cons
    have hversion := hv.isVersionChar_chars
    have heq : (Clause.compare op v).chars = op.symbol.toList ++ v.record.chars := rfl
    refine ⟨?_, ?_, ?_⟩
    · rw [heq, hchars]
      cases op with
      | eq =>
        exact ⟨d, rest, rfl, ne_of_isDigit hd rfl,
          isLead_eq_false_of_isDecimalDigit (isDecimalDigit_of_isDigit hd)⟩
      | gt | gte => exact ⟨'>', _, rfl, by decide, by decide⟩
      | lt | lte => exact ⟨'<', _, rfl, by decide, by decide⟩
    · have hne : v.record.chars ≠ [] := hchars ▸ List.cons_ne_nil d rest
      refine ⟨op.symbol.toList ++ v.record.chars.dropLast, v.record.chars.getLast hne, ?_,
        hversion _ (List.getLast_mem hne)⟩
      rw [heq, List.append_assoc, List.dropLast_append_getLast]
    · intro c hc
      rw [heq] at hc
      rcases List.mem_append.1 hc with hc | hc
      · exact Or.inl (Operator.isOperatorChar_of_mem_symbol hc)
      · exact Or.inr (hversion c hc)

/-! ## Groups -/

theorem mapM_clauses?_chars {group : List Clause} (h : AllKnown group) :
    ((group.map Clause.chars).filterMap Term.read?).mapM Term.clauses? =
      some (group.map fun c => [c]) := by
  induction group with
  | nil => rfl
  | cons c group ih =>
    obtain ⟨t, hread, hclauses⟩ := (h c List.mem_cons_self).read?_chars
    rw [List.map_cons, List.filterMap_cons, hread, List.mapM_cons, hclauses,
      ih fun d hd => h d (List.mem_cons_of_mem c hd)]
    rfl

/-- **A group reads back from its text.** -/
theorem groupClauses?_groupChars {group : List Clause} (hne : group ≠ []) (h : AllKnown group) :
    groupClauses? (ParsedRange.groupChars group) = some group := by
  have hwords : ∀ w ∈ group.map Clause.chars, IsClauseWord w := by
    intro w hw
    obtain ⟨c, hc, rfl⟩ := List.mem_map.1 hw
    exact (h c hc).isClauseWord
  have hterms : words (closeUp false (ParsedRange.groupChars group)) = group.map Clause.chars := by
    rw [ParsedRange.groupChars, closeUp_intercalate hwords,
      words_intercalate (fun w hw => (hwords w hw).ne_nil) fun w hw => (hwords w hw).isBlank_eq_false]
  rw [groupClauses?, ParsedRange.groupChars, readHyphen?_intercalate hwords]
  show termClauses? (ParsedRange.groupChars group) = _
  unfold termClauses?
  split
  · next hnil =>
    rw [hterms] at hnil
    exact absurd (List.map_eq_nil_iff.1 hnil) hne
  · rw [hterms, mapM_clauses?_chars h, Option.map_some, List.flatten_eq_flatMap, List.flatMap_map]
    simp

/-! ## Ranges -/

/-- A text without bars that neither begins nor ends with a blank. -/
structure IsGroupText (cs : List Char) : Prop where
  head : ∃ c rest, cs = c :: rest ∧ isBlank c = false
  last : ∃ front c, cs = front ++ [c] ∧ isBlank c = false
  not_mem_bar : '|' ∉ cs

/-- Two such texts with other characters between them. -/
theorem IsGroupText.append {cs ds : List Char} (hcs : IsGroupText cs) (hds : IsGroupText ds)
    {mid : List Char} (hmid : '|' ∉ mid) : IsGroupText (cs ++ mid ++ ds) := by
  obtain ⟨c, rest, rfl, hc⟩ := hcs.head
  obtain ⟨front, d, rfl, hd⟩ := hds.last
  refine ⟨⟨c, rest ++ mid ++ (front ++ [d]), rfl, hc⟩,
    ⟨c :: rest ++ mid ++ front, d, (List.append_assoc _ _ _).symm, hd⟩, ?_⟩
  rw [List.mem_append, List.mem_append, not_or, not_or]
  exact ⟨⟨hcs.not_mem_bar, hmid⟩, hds.not_mem_bar⟩

theorem isGroupText_of_isTermChar {w : List Char} (hne : w ≠ []) (h : ∀ c ∈ w, IsTermChar c) :
    IsGroupText w := by
  refine ⟨?_, ?_, fun hmem => (h '|' hmem).ne_bar rfl⟩
  · obtain ⟨c, rest, rfl⟩ := List.exists_cons_of_ne_nil hne
    exact ⟨c, rest, rfl, (h c List.mem_cons_self).isBlank_eq_false⟩
  · exact ⟨w.dropLast, w.getLast hne, (List.dropLast_concat_getLast hne).symm,
      (h _ (List.getLast_mem hne)).isBlank_eq_false⟩

theorem isGroupText_intercalate {ws : List (List Char)} (hne : ws ≠ [])
    (h : ∀ w ∈ ws, IsGroupText w) : IsGroupText ([' '].intercalate ws) := by
  induction ws with
  | nil => exact absurd rfl hne
  | cons w ws ih =>
    have hw := h w List.mem_cons_self
    cases ws with
    | nil =>
      rw [List.intercalate_singleton]
      exact hw
    | cons w' ws =>
      have hrest := ih (List.cons_ne_nil w' ws) fun w'' hw'' => h w'' (List.mem_cons_of_mem w hw'')
      rw [List.intercalate_cons_cons]
      exact hw.append hrest (by decide)

theorem IsGroupText.trim_append {cs : List Char} (h : IsGroupText cs) (front back : List Char)
    (hfront : ∀ c ∈ front, isBlank c = true) (hback : ∀ c ∈ back, isBlank c = true) :
    trim (front ++ cs ++ back) = cs := by
  obtain ⟨c, rest, hhead, hc⟩ := h.head
  obtain ⟨init, d, hlast, hd⟩ := h.last
  have hstart : trimStart (front ++ cs ++ back) = cs ++ back := by
    rw [trimStart, List.append_assoc, List.dropWhile_append_of_pos hfront, hhead,
      List.cons_append, List.dropWhile_cons, hc, if_neg Bool.false_ne_true]
  have hend : (cs ++ back).reverse.dropWhile isBlank = cs.reverse := by
    rw [List.reverse_append,
      List.dropWhile_append_of_pos fun e he => hback e (List.mem_reverse.1 he), hlast,
      List.reverse_append, List.reverse_singleton, List.singleton_append, List.dropWhile_cons, hd,
      if_neg Bool.false_ne_true]
  rw [trim, hstart, trimEnd, hend, List.reverse_reverse]

/-- A text of groups with bars between them is cut into the groups. -/
theorem map_trim_splitBars {groups : List (List Char)} (hne : groups ≠ [])
    (h : ∀ g ∈ groups, IsGroupText g) (front : List Char) (hfront : ∀ c ∈ front, c = ' ') :
    (splitBars (front ++ " || ".toList.intercalate groups)).map trim = groups := by
  induction groups generalizing front with
  | nil => exact absurd rfl hne
  | cons g groups ih =>
    have hg := h g List.mem_cons_self
    have hblank : ∀ c ∈ front, isBlank c = true := by
      intro c hc
      rw [hfront c hc]
      decide
    have hbar : '|' ∉ front ++ g := by
      rw [List.mem_append, not_or]
      exact ⟨fun hmem => absurd (hfront '|' hmem) (by decide), hg.not_mem_bar⟩
    cases groups with
    | nil =>
      rw [List.intercalate_singleton, splitBars_of_not_mem hbar]
      have htrim := hg.trim_append front [] hblank nofun
      rw [List.append_nil] at htrim
      rw [List.map_singleton, htrim]
    | cons g' groups =>
      -- The blank before the bars goes with `g`, the one behind them is in front of `g'`.
      have hsplit : front ++ " || ".toList.intercalate (g :: g' :: groups) =
          (front ++ g ++ [' ']) ++
            '|' :: '|' :: ([' '] ++ " || ".toList.intercalate (g' :: groups)) := by
        rw [List.intercalate_cons_cons]
        simp
      have hbar' : '|' ∉ front ++ g ++ [' '] := by
        rw [List.mem_append, not_or]
        exact ⟨hbar, by decide⟩
      have hrest := ih (List.cons_ne_nil _ _)
        (fun g'' hg'' => h g'' (List.mem_cons_of_mem g hg'')) [' ']
        (List.forall_mem_singleton.2 rfl)
      rw [hsplit, splitBars_piece hbar', List.map_cons, hg.trim_append front [' '] hblank
        (List.forall_mem_singleton.2 rfl), hrest]

namespace ParsedRange

theorem absorb_absorb (range : ParsedRange) : absorb (absorb range) = absorb range := by
  by_cases h : [Clause.any] ∈ range
  · have hany : absorb range = [[Clause.any]] := if_pos h
    rw [hany]
    rfl
  · have hself : absorb range = range := if_neg h
    rw [hself, hself]

/-- What is read has a group, no group is empty, and none makes others idle. -/
theorem parse?_spec {text : String} {range : ParsedRange} (h : parse? text = some range) :
    range ≠ [] ∧ (∀ group ∈ range, group ≠ []) ∧ absorb range = range := by
  unfold parse? at h
  obtain ⟨groups, -, h⟩ := Option.bind_eq_some_iff.1 h
  split at h
  · cases h
  · next kept hkept =>
    cases h
    have hne : ∀ group ∈ groups.filter (fun group => !group.isEmpty), group ≠ [] := by
      intro group hgroup
      simpa using (List.mem_filter.1 hgroup).2
    refine ⟨?_, ?_, absorb_absorb _⟩
    · unfold absorb
      split
      · exact List.cons_ne_nil _ _
      · exact hkept
    · unfold absorb
      split
      · intro group hgroup
        rw [List.mem_singleton.1 hgroup]
        exact List.cons_ne_nil _ _
      · exact hne

/-- **A range that is read is the range of its own text.** -/
theorem parse?_text_of_parse? {source : String} {range : ParsedRange}
    (h : parse? source = some range) : parse? range.text = some range := by
  obtain ⟨hne, hgroups, habsorb⟩ := parse?_spec h
  have hknown := parse?_known h
  have htexts : ∀ g ∈ range.map groupChars, IsGroupText g := by
    intro g hg
    obtain ⟨group, hgroup, rfl⟩ := List.mem_map.1 hg
    refine isGroupText_intercalate ?_ ?_
    · simpa using hgroups group hgroup
    · intro w hw
      obtain ⟨c, hc, rfl⟩ := List.mem_map.1 hw
      have hword := (hknown group hgroup c hc).isClauseWord
      exact isGroupText_of_isTermChar hword.ne_nil hword.chars
  have hcut : (splitBars range.text.toList).map trim = range.map groupChars := by
    rw [ParsedRange.text, String.toList_ofList]
    exact map_trim_splitBars (by simpa using hne) htexts [] nofun
  have hread : (splitBars range.text.toList).mapM (groupClauses? ∘ trim) = some range := by
    rw [← List.mapM_map, hcut, mapM_eq_some_iff, List.forall₂_map_left_iff, List.forall₂_same]
    exact fun group hgroup => groupClauses?_groupChars (hgroups group hgroup) (hknown group hgroup)
  have hkept : range.filter (fun group => !group.isEmpty) = range := by
    rw [List.filter_eq_self]
    intro group hgroup
    simpa using hgroups group hgroup
  show ((splitBars range.text.toList).mapM (groupClauses? ∘ trim)).bind _ = _
  rw [hread, Option.bind_some, hkept]
  split
  · exact absurd rfl hne
  · rw [habsorb]

/-- A range of four groups, with blanks, operators, identifiers of both kinds, and words that the
    reader drops. -/
def mixedSource : String :=
  "^ 0.1.2-01.x || =v4.5.67.8+007 <9 nonsense || 1.2.3rc0 - 2.x || 3.0.0-18446744073709551616"

/-- What it stands for. -/
def mixedRange : ParsedRange :=
  [[.compare .gte { major := 0, minor := 1, patch := 2,
                    prerelease := [.numeric 1, .alphanumeric "x"] },
    .compare .lt (.release 0 2 0)],
   [.compare .eq { major := 4, minor := 5, patch := 6,
                   prerelease := [.numeric 7, .numeric 8], build := [.numeric 7] },
    .compare .lt (.release 9 0 0)],
   [.compare .gte { major := 1, minor := 2, patch := 3, prerelease := [.alphanumeric "rc0"] },
    .compare .lt (.release 3 0 0)],
   [.compare .eq { major := 3, minor := 0, patch := 0,
                   prerelease := [.alphanumeric "18446744073709551616"] }]]

/-- The text of that range is another one, and is read as the same range. -/
theorem mixedRange_is_read_from_its_text :
    parse? mixedSource = some mixedRange ∧
      mixedRange.text = ">=0.1.2-1.x <0.2.0 || 4.5.6-7.8+7 <9.0.0 || >=1.2.3-rc0 <3.0.0 || " ++
        "3.0.0-18446744073709551616" ∧
      parse? mixedRange.text = some mixedRange := by
  have hread : parse? mixedSource = some mixedRange := by decide +kernel
  exact ⟨hread, by decide +kernel, parse?_text_of_parse? hread⟩

end ParsedRange

end DepSpec
