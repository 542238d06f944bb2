import DepSpec.Text.Split
import Mathlib.Data.List.DropRight

set_option autoImplicit false

/-! # Pieces of a text

What trimming, cutting and stripping leave of a text. Trimming takes blanks only (`trim_spec`), and
cutting loses no character but the separators (`mem_splitWhere`). A text behind a run of separators
and other characters ends up in the last piece (`splitWhere_append`). Cutting is the cut that the
library of lists has (`splitWhere_eq_splitOnP`), so that its laws about joining apply. -/

namespace DepSpec.Text

/-! ## Blanks -/

/-- The code points of the blanks. -/
def blankCodes : List Nat :=
  [0x09, 0x0A, 0x0B, 0x0C, 0x0D, 0x20, 0x85, 0xA0, 0x1680, 0x2000, 0x2001, 0x2002, 0x2003,
   0x2004, 0x2005, 0x2006, 0x2007, 0x2008, 0x2009, 0x200A, 0x2028, 0x2029, 0x202F, 0x205F, 0x3000]

theorem mem_blankCodes {c : Char} (h : isBlank c = true) : c.toNat ∈ blankCodes := by
  simp only [isBlank, Bool.or_eq_true, Bool.and_eq_true, decide_eq_true_eq, beq_iff_eq] at h
  simp only [blankCodes, List.mem_cons, List.not_mem_nil, or_false]
  omega

/-- A class that holds none of the blanks. -/
theorem isBlank_eq_false {p : Char → Bool}
    (hp : (blankCodes.all fun n => !p (Char.ofNat n)) = true) {c : Char} (h : p c = true) :
    isBlank c = false := by
  cases hblank : isBlank c with
  | false => rfl
  | true =>
    have hnot := List.all_eq_true.1 hp _ (mem_blankCodes hblank)
    rw [Char.ofNat_toNat, h] at hnot
    cases hnot

/-! ## Trimming -/

theorem trimStart_spec (cs : List Char) :
    ∃ front, cs = front ++ trimStart cs ∧ ∀ c ∈ front, isBlank c = true :=
  ⟨cs.takeWhile isBlank, List.takeWhile_append_dropWhile.symm, fun _ hc =>
    List.all_eq_true.1 List.all_takeWhile _ hc⟩

theorem trimEnd_spec (cs : List Char) :
    ∃ back, cs = trimEnd cs ++ back ∧ ∀ c ∈ back, isBlank c = true := by
  obtain ⟨front, hsplit, hfront⟩ := trimStart_spec cs.reverse
  refine ⟨front.reverse, ?_, fun c hc => hfront c (List.mem_reverse.1 hc)⟩
  rw [trimEnd, ← List.reverse_append, ← trimStart, ← hsplit, List.reverse_reverse]

/-- Trimming takes blanks from both ends. -/
theorem trim_spec (cs : List Char) :
    ∃ front back, cs = front ++ trim cs ++ back ∧ (∀ c ∈ front, isBlank c = true) ∧
      ∀ c ∈ back, isBlank c = true := by
  obtain ⟨front, hsplit, hfront⟩ := trimStart_spec cs
  obtain ⟨back, hend, hback⟩ := trimEnd_spec (trimStart cs)
  refine ⟨front, back, ?_, hfront, hback⟩
  rw [List.append_assoc, trim, ← hend]
  exact hsplit

/-- A text that trimming leaves alone loses nothing at its end. -/
theorem trimEnd_eq_self {cs : List Char} (h : trim cs = cs) : trimEnd cs = cs := by
  obtain ⟨front, hstart, -⟩ := trimStart_spec cs
  obtain ⟨back, hend, -⟩ := trimEnd_spec (trimStart cs)
  rw [← trim, h] at hend
  have hstartLength := congrArg List.length hstart
  have hendLength := congrArg List.length hend
  rw [List.length_append] at hstartLength hendLength
  obtain rfl : front = [] := List.length_eq_zero_iff.1 (by omega)
  rw [List.nil_append] at hstart
  conv => lhs; rw [hstart]
  exact h

/-- Trimming the end does not reach behind a text that it leaves alone. -/
theorem trimEnd_append {cs : List Char} (front : List Char) (h : trimEnd cs = cs) (hne : cs ≠ []) :
    trimEnd (front ++ cs) = front ++ cs := by
  have hdrop : cs.reverse.dropWhile isBlank = cs.reverse := by
    rw [← List.reverse_eq_iff]
    exact h
  rw [trimEnd, List.reverse_append, List.dropWhile_append, hdrop, List.isEmpty_reverse,
    if_neg (by simpa using hne), List.reverse_append, List.reverse_reverse, List.reverse_reverse]

/-- A text loses nothing at its end if a longer text with the same end does not. -/
theorem trimEnd_of_append {front cs : List Char} (h : trimEnd (front ++ cs) = front ++ cs) :
    trimEnd cs = cs := by
  refine List.rdropWhile_eq_self_iff.2 fun hne => ?_
  have hlast := List.rdropWhile_eq_self_iff.1 h (List.append_ne_nil_of_right_ne_nil front hne)
  rwa [List.getLast_append_of_ne_nil _ hne] at hlast

theorem trimEnd_trim (cs : List Char) : trimEnd (trim cs) = trim cs :=
  List.rdropWhile_idempotent _ _

/-- Blanks behind a text go with those at its end. -/
theorem trimEnd_append_blanks (cs : List Char) {back : List Char}
    (h : ∀ c ∈ back, isBlank c = true) : trimEnd (cs ++ back) = trimEnd cs := by
  rw [trimEnd, trimEnd, List.reverse_append,
    List.dropWhile_append_of_pos fun c hc => h c (List.mem_reverse.1 hc)]

/-- A blank behind a text goes with those at its end. -/
theorem trim_concat (cs : List Char) {c : Char} (hc : isBlank c = true) :
    trim (cs ++ [c]) = trim cs := by
  rw [trim, trim, trimStart, trimStart, List.dropWhile_append]
  split
  · next hnil =>
    rw [List.isEmpty_iff.1 hnil, List.dropWhile_cons_of_pos hc]
    rfl
  · exact trimEnd_append_blanks _ (List.forall_mem_singleton.2 hc)

theorem trim_cons {c : Char} {cs : List Char} (hc : isBlank c = false) :
    trim (c :: cs) = trimEnd (c :: cs) := by
  rw [trim, trimStart, List.dropWhile_cons_of_neg (by simp [hc])]

/-- Trimming the end stops at a character that is no blank. -/
theorem trimEnd_append_cons (front : List Char) {c : Char} (hc : isBlank c = false)
    (cs : List Char) : trimEnd (front ++ c :: cs) = front ++ c :: trimEnd cs := by
  obtain ⟨back, hend, hback⟩ := trimEnd_spec cs
  have hself : trimEnd (front ++ c :: trimEnd cs) = front ++ c :: trimEnd cs := by
    refine List.rdropWhile_eq_self_iff.2 fun hne => ?_
    rw [List.getLast_append_of_ne_nil _ (List.cons_ne_nil _ _)]
    by_cases hnil : trimEnd cs = []
    · simp [hnil, hc]
    · rw [List.getLast_cons hnil]
      exact List.rdropWhile_last_not isBlank cs hnil
  conv => lhs; rw [hend]
  rw [← List.cons_append, ← List.append_assoc, trimEnd_append_blanks _ hback, hself]

theorem trim_append_cons {front : List Char} (h : ∀ c ∈ front, isBlank c = false) {c : Char}
    (hc : isBlank c = false) (cs : List Char) :
    trim (front ++ c :: cs) = front ++ c :: trimEnd cs := by
  rw [← trimEnd_append_cons front hc cs]
  cases front with
  | nil => exact trim_cons hc
  | cons d front => exact trim_cons (h d List.mem_cons_self)

theorem trim_of_not_blank {cs : List Char} (h : ∀ c ∈ cs, isBlank c = false) : trim cs = cs := by
  have hstart : trimStart cs = cs := by
    cases cs with
    | nil => rfl
    | cons c cs => exact List.dropWhile_cons_of_neg (by simp [h c List.mem_cons_self])
  rw [trim, hstart]
  exact List.rdropWhile_eq_self_iff.2 fun hne => by simp [h _ (List.getLast_mem hne)]

/-! ## How a text begins -/

theorem after?_eq_some_iff {start cs rest : List Char} :
    after? start cs = some rest ↔ cs = start ++ rest := by
  unfold after?
  constructor
  · intro h
    split at h
    · next hprefix =>
      obtain ⟨rest', rfl⟩ := List.isPrefixOf_iff_prefix.1 hprefix
      simpa using h
    · cases h
  · rintro rfl
    simp

/-! ## Cutting -/

variable {sep : Char → Bool}

theorem beq_eq_false_of_not_mem {cs : List Char} {d : Char} (h : d ∉ cs) :
    ∀ c ∈ cs, (c == d) = false := by
  intro c hc
  rw [beq_eq_false_iff_ne]
  rintro rfl
  exact h hc

/-- A text without separators goes to the first of the pieces that stand behind it. -/
theorem splitWhere_append_of_not_mem {front : List Char} (h : ∀ c ∈ front, sep c = false)
    (cs : List Char) : splitWhere sep (front ++ cs) = (splitWhere sep cs).modifyHead (front ++ ·) := by
  induction front with
  | nil => exact (congrFun List.modifyHead_id _).symm
  | cons c front ih =>
    obtain ⟨piece, pieces, hpieces⟩ := List.exists_cons_of_ne_nil (splitWhere_ne_nil sep cs)
    rw [List.cons_append, splitWhere, h c List.mem_cons_self,
      ih fun d hd => h d (List.mem_cons_of_mem c hd), hpieces]
    rfl

theorem splitWhere_of_not_mem {cs : List Char} (h : ∀ c ∈ cs, sep c = false) :
    splitWhere sep cs = [cs] := by
  simpa [splitWhere] using splitWhere_append_of_not_mem h []

/-- A piece without separators ends at the first separator. -/
theorem splitWhere_piece {piece : List Char} (h : ∀ c ∈ piece, sep c = false) {s : Char}
    (hs : sep s = true) (rest : List Char) :
    splitWhere sep (piece ++ s :: rest) = piece :: splitWhere sep rest := by
  rw [splitWhere_append_of_not_mem h, splitWhere, if_pos hs, List.modifyHead_cons, List.append_nil]

/-- The first cut is behind a front without separators. -/
theorem cut?_append {front : List Char} (h : ∀ c ∈ front, sep c = false) (rest : List Char) :
    cut? sep (front ++ rest) =
      (cut? sep rest).map fun (before, after) => (front ++ before, after) := by
  induction front with
  | nil => simp
  | cons c front ih =>
    rw [List.cons_append, cut?, h c List.mem_cons_self,
      ih fun d hd => h d (List.mem_cons_of_mem c hd)]
    cases cut? sep rest <;> rfl

theorem cut?_of_not_mem {cs : List Char} (h : ∀ c ∈ cs, sep c = false) : cut? sep cs = none := by
  simpa [cut?] using cut?_append h []

theorem not_mem_of_cut?_eq_none {cs : List Char} (h : cut? sep cs = none) :
    ∀ c ∈ cs, sep c = false := by
  induction cs with
  | nil => simp
  | cons c cs ih =>
    unfold cut? at h
    split at h
    · cases h
    · next hc =>
      intro d hd
      rcases List.mem_cons.1 hd with rfl | hd
      · simpa using hc
      · exact ih (Option.map_eq_none_iff.1 h) d hd

theorem cut?_piece {piece : List Char} (h : ∀ c ∈ piece, sep c = false) {s : Char}
    (hs : sep s = true) (rest : List Char) :
    cut? sep (piece ++ s :: rest) = some (piece, rest) := by
  simpa [cut?, hs] using cut?_append h (s :: rest)

/-- Every character but the separators is in a piece. -/
theorem mem_splitWhere (sep : Char → Bool) {cs : List Char} {c : Char} (hc : c ∈ cs) :
    sep c = true ∨ ∃ piece ∈ splitWhere sep cs, c ∈ piece := by
  induction cs with
  | nil => cases hc
  | cons d cs ih =>
    rw [splitWhere]
    by_cases hd : sep d = true
    · rw [if_pos hd]
      rcases List.mem_cons.1 hc with rfl | hc
      · exact Or.inl hd
      · obtain hsep | ⟨piece, hpiece, hmem⟩ := ih hc
        · exact Or.inl hsep
        · exact Or.inr ⟨piece, List.mem_cons_of_mem _ hpiece, hmem⟩
    · rw [if_neg hd]
      split
      · next hnil => exact absurd hnil (splitWhere_ne_nil sep cs)
      · next first pieces hpieces =>
        rw [hpieces] at ih
        rcases List.mem_cons.1 hc with rfl | hc
        · exact Or.inr ⟨_, List.mem_cons_self, List.mem_cons_self⟩
        · obtain hsep | ⟨piece, hpiece, hmem⟩ := ih hc
          · exact Or.inl hsep
          · rcases List.mem_cons.1 hpiece with rfl | hpiece
            · exact Or.inr ⟨_, List.mem_cons_self, List.mem_cons_of_mem _ hmem⟩
            · exact Or.inr ⟨piece, List.mem_cons_of_mem _ hpiece, hmem⟩

/-- A text without separators goes to the last of the pieces that stand before it. -/
theorem splitWhere_append (front : List Char) {cs : List Char} (h : ∀ c ∈ cs, sep c = false) :
    ∃ pieces last, splitWhere sep (front ++ cs) = pieces ++ [last ++ cs] ∧
      ∀ piece ∈ pieces ++ [last], ∀ c ∈ piece, c ∈ front ∧ sep c = false := by
  induction front with
  | nil => exact ⟨[], [], splitWhere_of_not_mem h, by simp⟩
  | cons d front ih =>
    obtain ⟨pieces, last, hsplit, hall⟩ := ih
    rw [List.cons_append, splitWhere, hsplit]
    have hfront (piece) (hpiece : piece ∈ pieces ++ [last]) (c) (hc : c ∈ piece) :
        c ∈ d :: front ∧ sep c = false :=
      ⟨List.mem_cons_of_mem d (hall piece hpiece c hc).1, (hall piece hpiece c hc).2⟩
    by_cases hd : sep d = true
    · refine ⟨[] :: pieces, last, if_pos hd, ?_⟩
      intro piece hpiece
      rcases List.mem_cons.1 hpiece with rfl | hpiece
      · exact fun c hc => absurd hc List.not_mem_nil
      · exact hfront piece hpiece
    · have hself : d ∈ d :: front ∧ sep d = false := ⟨List.mem_cons_self, Bool.eq_false_iff.2 hd⟩
      -- The character goes to the front of the first piece, which may be the last one.
      cases pieces with
      | nil =>
        refine ⟨[], d :: last, if_neg hd, ?_⟩
        intro piece hpiece c hc
        obtain rfl := List.mem_singleton.1 hpiece
        rcases List.mem_cons.1 hc with rfl | hc
        · exact hself
        · exact hfront last List.mem_concat_self c hc
      | cons first pieces =>
        refine ⟨(d :: first) :: pieces, last, if_neg hd, ?_⟩
        intro piece hpiece c hc
        rcases List.mem_cons.1 hpiece with rfl | hpiece
        · rcases List.mem_cons.1 hc with rfl | hc
          · exact hself
          · exact hfront first List.mem_cons_self c hc
        · exact hfront piece (List.mem_cons_of_mem _ hpiece) c hc

/-- Every piece is made of characters of the text that are no separators. -/
theorem of_mem_splitWhere {cs piece : List Char} (h : piece ∈ splitWhere sep cs) {c : Char}
    (hc : c ∈ piece) : c ∈ cs ∧ sep c = false := by
  have hnil : ∀ c ∈ ([] : List Char), sep c = false := by simp
  obtain ⟨pieces, last, hsplit, hall⟩ := splitWhere_append cs hnil
  simp only [List.append_nil] at hsplit
  rw [hsplit] at h
  exact hall piece h c hc

/-- The library's own cut at every separator. -/
theorem splitWhere_eq_splitOnP (sep : Char → Bool) (cs : List Char) :
    splitWhere sep cs = cs.splitOnP sep := by
  induction cs with
  | nil => rfl
  | cons c cs ih =>
    rw [splitWhere, ih, List.splitOnP_cons_eq_if_modifyHead]
    split
    · rfl
    · obtain ⟨piece, pieces, hpieces⟩ := List.exists_cons_of_ne_nil (List.splitOnP_ne_nil sep cs)
      rw [hpieces]
      rfl

theorem splitSlashes_eq_splitOn (cs : List Char) : splitSlashes cs = cs.splitOn '/' :=
  splitWhere_eq_splitOnP _ cs

/-! ## Pieces between slashes -/

theorem not_mem_of_mem_splitSlashes {cs piece : List Char} (h : piece ∈ splitSlashes cs) :
    '/' ∉ piece := by
  intro hmem
  obtain ⟨-, hslash⟩ := of_mem_splitWhere h hmem
  cases hslash

theorem splitSlashes_append (front back : List Char) :
    splitSlashes (front ++ '/' :: back) = splitSlashes front ++ splitSlashes back := by
  simp only [splitSlashes_eq_splitOn]
  exact List.splitOn_append_cons_self front back

theorem intercalate_splitSlashes (cs : List Char) : ['/'].intercalate (splitSlashes cs) = cs := by
  rw [splitSlashes_eq_splitOn]
  exact List.intercalate_splitOn '/'

theorem splitSlashes_intercalate {pieces : List (List Char)} (hne : pieces ≠ [])
    (h : ∀ piece ∈ pieces, '/' ∉ piece) : splitSlashes (['/'].intercalate pieces) = pieces := by
  rw [splitSlashes_eq_splitOn]
  exact List.splitOn_intercalate '/' h hne

theorem splitSlashes_of_not_mem {cs : List Char} (h : '/' ∉ cs) : splitSlashes cs = [cs] := by
  rw [splitSlashes_eq_splitOn]
  exact List.splitOn_eq_singleton h

/-- A text whose pieces are told in two parts is the two parts with a slash between them. -/
theorem eq_append_of_splitSlashes {cs : List Char} {front back : List (List Char)}
    (h : splitSlashes cs = front ++ back) (hfront : front ≠ []) (hback : back ≠ []) :
    cs = ['/'].intercalate front ++ '/' :: ['/'].intercalate back := by
  have hslash : ∀ piece ∈ front ++ back, '/' ∉ piece :=
    fun piece hpiece => not_mem_of_mem_splitSlashes (h ▸ hpiece)
  have hsplit : splitSlashes (['/'].intercalate front ++ '/' :: ['/'].intercalate back) =
      splitSlashes cs := by
    rw [splitSlashes_append, h,
      splitSlashes_intercalate hfront fun piece hp => hslash piece (List.mem_append_left _ hp),
      splitSlashes_intercalate hback fun piece hp => hslash piece (List.mem_append_right _ hp)]
  rw [← intercalate_splitSlashes cs, ← hsplit, intercalate_splitSlashes]

theorem prefix_intercalate (sep piece : List Char) (pieces : List (List Char)) :
    piece <+: sep.intercalate (piece :: pieces) := by
  cases pieces with
  | nil => exact ⟨[], by rw [List.append_nil, List.intercalate_singleton]⟩
  | cons next pieces =>
    rw [List.intercalate_cons_cons, List.append_assoc]
    exact List.prefix_append piece _

/-! ## Taking off ends -/

theorem strip_prefix_dropWhile (p : Char → Bool) (cs : List Char) :
    strip p cs <+: cs.dropWhile p :=
  List.rdropWhile_prefix p _

theorem isInfix_strip (p : Char → Bool) (cs : List Char) : strip p cs <:+: cs :=
  (strip_prefix_dropWhile p cs).isInfix.trans (List.dropWhile_suffix p).isInfix

theorem mem_of_mem_strip {p : Char → Bool} {cs : List Char} {c : Char} (h : c ∈ strip p cs) :
    c ∈ cs :=
  (isInfix_strip p cs).subset h

/-- What is left begins with no character of the class. -/
theorem head_strip {p : Char → Bool} {cs : List Char} {c : Char} {rest : List Char}
    (h : strip p cs = c :: rest) : p c = false := by
  obtain ⟨back, hback⟩ := strip_prefix_dropWhile p cs
  have hhead := List.head?_dropWhile_not p cs
  rw [← hback, h] at hhead
  exact hhead

/-- Nor does it end with one. -/
theorem last_strip {p : Char → Bool} {cs : List Char} {c : Char} {front : List Char}
    (h : strip p cs = front ++ [c]) : p c = false := by
  have hne : (cs.dropWhile p).rdropWhile p ≠ [] := by
    show strip p cs ≠ []
    simp [h]
  have hlast := List.rdropWhile_last_not p (cs.dropWhile p) hne
  have hself : (cs.dropWhile p).rdropWhile p = front ++ [c] := h
  simpa [hself] using hlast

theorem strip_eq_self {p : Char → Bool} {c d : Char} {cs front rest : List Char}
    (hhead : cs = c :: rest) (hc : p c = false) (hlast : cs = front ++ [d]) (hd : p d = false) :
    strip p cs = cs := by
  have hstart : cs.dropWhile p = cs := by
    rw [hhead, List.dropWhile_cons_of_neg (by simp [hc])]
  rw [strip, hstart, hlast, List.reverse_append, List.reverse_singleton, List.singleton_append,
    List.dropWhile_cons_of_neg (by simp [hd]), List.reverse_cons, List.reverse_reverse]

/-- Trimming is stripping of blanks, and leaves nothing to trim. -/
theorem trim_trim (cs : List Char) : trim (trim cs) = trim cs := by
  cases hhead : trim cs with
  | nil => rfl
  | cons c rest =>
    obtain ⟨front, d, hlast⟩ : ∃ front d, c :: rest = front ++ [d] :=
      ⟨_, _, (List.dropLast_append_getLast (List.cons_ne_nil c rest)).symm⟩
    exact strip_eq_self rfl (head_strip hhead) hlast (last_strip (hhead.trans hlast))

theorem withoutEnding_append (cs ending : List Char) : withoutEnding ending (cs ++ ending) = cs := by
  simp [withoutEnding]

theorem withoutEnding_isPrefix (ending cs : List Char) : withoutEnding ending cs <+: cs := by
  unfold withoutEnding
  split
  · exact List.take_prefix _ _
  · exact List.prefix_rfl

theorem withoutEnding_of_not_suffix {ending cs : List Char} (h : ¬ ending <:+ cs) :
    withoutEnding ending cs = cs :=
  if_neg (mt List.isSuffixOf_iff_suffix.1 h)

/-- An ending that is there is missed. -/
theorem withoutEnding_eq_self_iff {ending cs : List Char} (hne : ending ≠ []) :
    withoutEnding ending cs = cs ↔ ¬ ending <:+ cs := by
  refine ⟨?_, withoutEnding_of_not_suffix⟩
  rintro hself ⟨front, rfl⟩
  rw [withoutEnding_append] at hself
  exact hne (List.self_eq_append_right.1 hself)

/-- Nothing is left of the ending alone. -/
theorem withoutEnding_eq_nil_iff {ending cs : List Char} (hne : cs ≠ []) :
    withoutEnding ending cs = [] ↔ cs = ending := by
  by_cases hend : ending <:+ cs
  · obtain ⟨front, rfl⟩ := hend
    rw [withoutEnding_append, List.append_left_eq_self]
  · rw [withoutEnding_of_not_suffix hend]
    exact iff_of_false hne fun heq => hend (heq ▸ List.suffix_rfl)

end DepSpec.Text
