import DepSpec.Proofs.Version.Characters
import DepSpec.Range.Meaning
import DepSpec.Range.Parser
import Mathlib.Data.List.DropRight

set_option autoImplicit false

/-! # Loose versions as ranges

Every text that the loose grammar of versions takes is also a range, namely that version alone.
The two readers go different ways: the range reader cuts the text at bars, closes up the blanks
behind operators and cuts it at blanks, so that lead characters end up in words of their own. Those
words hold nothing to read, and the version is in the last word. -/

namespace DepSpec

open Text

/-! ## The text of a loose version -/

/-- The text without blanks around it is a run of lead characters and the parts. -/
theorem Version.parseLoose?_eq_some {text : String} {v : Version}
    (h : parseLoose? text = some v) :
    ∃ lead body t, trim text.toList = lead ++ body ∧
      (∀ c ∈ lead, PartialText.isLead c = true) ∧ body.dropWhile PartialText.isLead = body ∧
      PartialText.ofParts? body = some t ∧ t.value? = some (.full v) := by
  unfold parseLoose? at h
  split at h
  · cases h
  · split at h
    · next w hread =>
      cases h
      obtain ⟨t, htext, hvalue⟩ := Option.bind_eq_some_iff.1 hread
      refine ⟨_, _, t, List.takeWhile_append_dropWhile.symm, ?_, ?_, htext, hvalue⟩
      · exact fun c hc => List.all_eq_true.1 List.all_takeWhile c hc
      · exact List.dropWhile_idempotent _ _
    · cases h

theorem PartialText.ne_nil_of_ofParts? {cs : List Char} {t : PartialText}
    (h : ofParts? cs = some t) : cs ≠ [] := by
  rintro rfl
  cases h

theorem isOperatorChar_of_isVersionChar {c : Char} (h : isVersionChar c = true) :
    isOperatorChar c = false := by
  cases hop : isOperatorChar c with
  | false => rfl
  | true =>
    simp only [isOperatorChar, Bool.or_eq_true, beq_iff_eq] at hop
    rcases hop with (((rfl | rfl) | rfl) | rfl) | rfl <;> revert h <;> decide

/-! ## Cutting it -/

theorem splitBars_of_not_mem {cs : List Char} (h : '|' ∉ cs) : splitBars cs = [cs] := by
  induction cs with
  | nil => rfl
  | cons c cs ih =>
    obtain ⟨hc, hcs⟩ := List.ne_and_not_mem_of_not_mem_cons h
    rw [splitBars, ih hcs]
    rintro cs' rfl rfl
    exact hc rfl

theorem closeUp_of_not_blank {cs : List Char} (h : ∀ c ∈ cs, isBlank c = false) (joined : Bool) :
    closeUp joined cs = cs := by
  induction cs generalizing joined with
  | nil => rfl
  | cons c cs ih =>
    rw [closeUp, h c List.mem_cons_self, Bool.and_false, if_neg Bool.false_ne_true,
      ih fun d hd => h d (List.mem_cons_of_mem c hd)]

/-- A word stays as it is, and its last character tells what becomes of the blanks behind it. -/
theorem closeUp_word {front : List Char} (hfront : ∀ c ∈ front, isBlank c = false) {last : Char}
    (hlast : isBlank last = false) (joined : Bool) (rest : List Char) :
    closeUp joined (front ++ last :: rest) =
      front ++ last :: closeUp (isOperatorChar last) rest := by
  induction front generalizing joined with
  | nil =>
    rw [List.nil_append, closeUp, hlast, Bool.and_false, if_neg Bool.false_ne_true]
    rfl
  | cons c front ih =>
    rw [List.cons_append, closeUp, hfront c List.mem_cons_self, Bool.and_false,
      if_neg Bool.false_ne_true, ih fun d hd => hfront d (List.mem_cons_of_mem c hd)]
    rfl

/-- Closing up takes some of the blanks in front. -/
theorem closeUp_append (front : List Char) {cs : List Char} (h : ∀ c ∈ cs, isBlank c = false)
    (joined : Bool) :
    ∃ kept, closeUp joined (front ++ cs) = kept ++ cs ∧ ∀ c ∈ kept, c ∈ front := by
  induction front generalizing joined with
  | nil => exact ⟨[], closeUp_of_not_blank h joined, nofun⟩
  | cons d front ih =>
    rw [List.cons_append, closeUp]
    split
    · obtain ⟨kept, heq, hkept⟩ := ih true
      exact ⟨kept, heq, fun c hc => List.mem_cons_of_mem d (hkept c hc)⟩
    · obtain ⟨kept, heq, hkept⟩ := ih (isOperatorChar d)
      refine ⟨d :: kept, by rw [heq, List.cons_append], fun c hc => ?_⟩
      rcases List.mem_cons.1 hc with rfl | hc
      · exact List.mem_cons_self
      · exact List.mem_cons_of_mem d (hkept c hc)

/-! ## Reading the words -/

/-- A lead character that stands inside a word. -/
def IsWordLead (c : Char) : Prop := PartialText.isLead c = true ∧ isBlank c = false

theorem IsWordLead.eq {c : Char} (h : IsWordLead c) : c = 'v' ∨ c = '=' := by
  obtain ⟨hlead, hblank⟩ := h
  simpa [PartialText.isLead, hblank] using hlead

theorem ofChars?_append {lead : List Char} (h : ∀ c ∈ lead, PartialText.isLead c = true)
    (cs : List Char) : PartialText.ofChars? (lead ++ cs) = PartialText.ofChars? cs := by
  rw [PartialText.ofChars?, List.dropWhile_append_of_pos h]
  rfl

/-- A word without a sign in front is compared for equality, for which there is a sign too. -/
theorem Term.read?_equal {cs : List Char}
    (h : ∀ c ∈ cs.head?, c = '=' ∨ isOperatorChar c = false) :
    Term.read? cs = (PartialText.ofChars? cs).map (.compare .eq) := by
  cases cs with
  | nil => rfl
  | cons c cs =>
    rcases h c rfl with rfl | hc
    · rfl
    · simp only [isOperatorChar, Bool.or_eq_false_iff, beq_eq_false_iff_ne] at hc
      obtain ⟨⟨⟨⟨hlt, hgt⟩, heq⟩, htilde⟩, hcaret⟩ := hc
      have hread : readOperator (c :: cs) = (.eq, c :: cs) := by
        simp [readOperator, hlt, hgt, heq]
      simp [Term.read?, htilde, hcaret, hread]

/-- An operator in front of a word is read as it is written; an equality sign behind `>` or `<` would
    belong to it. -/
theorem Term.read?_symbols {op : Operator} {sign : String} (hsign : sign ∈ op.symbols)
    {cs : List Char} (hcs : ∀ c ∈ cs.head?, c = '=' ∨ isOperatorChar c = false)
    (hequal : op = .gt ∨ op = .lt → cs.head? ≠ some '=') :
    Term.read? (sign.toList ++ cs) = (PartialText.ofChars? cs).map (.compare op) := by
  cases op with
  | eq =>
    rcases List.mem_pair.1 hsign with rfl | rfl
    · exact read?_equal hcs
    · rfl
  | gte | lte =>
    obtain rfl := List.mem_singleton.1 hsign
    rfl
  | gt =>
    obtain rfl := List.mem_singleton.1 hsign
    have hread : readOperator ('>' :: cs) = (.gt, cs) := by
      rw [readOperator]
      rintro rest rfl
      exact hequal (Or.inl rfl) rfl
    show (PartialText.ofChars? (readOperator ('>' :: cs)).2).map
      (Term.compare (readOperator ('>' :: cs)).1) = _
    rw [hread]
  | lt =>
    obtain rfl := List.mem_singleton.1 hsign
    have hread : readOperator ('<' :: cs) = (.lt, cs) := by
      rw [readOperator]
      rintro rest rfl
      exact hequal (Or.inr rfl) rfl
    show (PartialText.ofChars? (readOperator ('<' :: cs)).2).map
      (Term.compare (readOperator ('<' :: cs)).1) = _
    rw [hread]

/-- Lead characters in front of a word are not read. -/
theorem Term.read?_lead {lead cs : List Char} (hlead : ∀ c ∈ lead, IsWordLead c)
    (hcs : ∀ c ∈ cs, isOperatorChar c = false) :
    Term.read? (lead ++ cs) = (PartialText.ofChars? cs).map (.compare .eq) := by
  have hhead : ∀ c ∈ (lead ++ cs).head?, c = '=' ∨ isOperatorChar c = false := by
    cases lead with
    | nil => exact fun c hc => Or.inr (hcs c (List.mem_of_mem_head? hc))
    | cons d lead =>
      rintro c ⟨⟩
      rcases (hlead d List.mem_cons_self).eq with rfl | rfl
      · exact Or.inr (by decide)
      · exact Or.inl rfl
  rw [read?_equal hhead, ofChars?_append fun d hd => (hlead d hd).1]

/-- A word of lead characters spells nothing. -/
theorem Term.read?_lead_eq_none {lead : List Char} (hlead : ∀ c ∈ lead, IsWordLead c) :
    Term.read? lead = none := by
  rw [← List.append_nil lead, read?_lead hlead fun _ hc => absurd hc List.not_mem_nil]
  rfl

/-- Lead characters, with blanks among them, and a partial version spell one comparator. -/
theorem filterMap_words {lead body : List Char} {t : PartialText}
    (hlead : ∀ c ∈ lead, PartialText.isLead c = true)
    (hbody : body.dropWhile PartialText.isLead = body)
    (ht : PartialText.ofParts? body = some t) :
    (words (lead ++ body)).filterMap Term.read? = [.compare .eq t] := by
  have hchars := PartialText.isVersionChar_of_ofParts? ht
  obtain ⟨pieces, last, hsplit, hall⟩ :=
    splitWhere_append lead fun c hc => isBlank_of_isVersionChar (hchars c hc)
  have hword {piece : List Char} (hpiece : piece ∈ pieces ++ [last]) :
      ∀ c ∈ piece, IsWordLead c :=
    fun c hc => ⟨hlead c (hall piece hpiece c hc).1, (hall piece hpiece c hc).2⟩
  -- All words but the last one are lead characters only.
  have hpieces : (pieces.filter fun w => !w.isEmpty).filterMap Term.read? = [] := by
    rw [List.filterMap_eq_nil_iff]
    intro piece hpiece
    exact Term.read?_lead_eq_none
      (hword (List.mem_append_left _ (List.mem_filter.1 hpiece).1))
  have hlast : Term.read? (last ++ body) = some (.compare .eq t) := by
    rw [Term.read?_lead (hword List.mem_concat_self) fun c hc =>
      isOperatorChar_of_isVersionChar (hchars c hc)]
    rw [PartialText.ofChars?, hbody, ht]
    rfl
  have hne : (!(last ++ body).isEmpty) = true := by
    simp [PartialText.ne_nil_of_ofParts? ht]
  rw [words, hsplit, List.filter_append, List.filterMap_append, hpieces, List.nil_append,
    List.filter_singleton, hne]
  simp [hlast]

/-! ## The range -/

/-- There is no hyphen between blanks behind the lead characters. -/
theorem readHyphen?_eq_none {lead body : List Char}
    (hlead : ∀ c ∈ lead, PartialText.isLead c = true)
    (hbody : body.dropWhile PartialText.isLead = body) (hblank : ∀ c ∈ body, isBlank c = false) :
    readHyphen? (lead ++ body) = none := by
  have hword : ∀ c ∈ body, (!isBlank c) = true := fun c hc => by rw [hblank c hc]; rfl
  rw [readHyphen?, List.dropWhile_append_of_pos hlead, hbody, List.dropWhile_eq_nil_iff.2 hword]
  cases PartialText.ofParts? (body.takeWhile fun c => !isBlank c) <;> rfl

/-- **A loose version is the range of that version alone.** -/
theorem ParsedRange.parse?_of_parseLoose? {text : String} {v : Version}
    (h : Version.parseLoose? text = some v) : parse? text = some [[.compare .eq v]] := by
  obtain ⟨lead, body, t, htrim, hlead, hbody, ht, hvalue⟩ := Version.parseLoose?_eq_some h
  have hchars := PartialText.isVersionChar_of_ofParts? ht
  have hblank : ∀ c ∈ body, isBlank c = false := fun c hc => isBlank_of_isVersionChar (hchars c hc)
  have hbar : '|' ∉ text.toList := by
    obtain ⟨front, back, hsplit, hfront, hback⟩ := trim_spec text.toList
    intro hmem
    rw [hsplit, htrim] at hmem
    simp only [List.mem_append] at hmem
    rcases hmem with (hmem | hmem | hmem) | hmem
    · exact absurd (hfront _ hmem) (by decide)
    · exact absurd (hlead _ hmem) (by decide)
    · exact absurd (hchars _ hmem) (by decide)
    · exact absurd (hback _ hmem) (by decide)
  have hterms : termClauses? (trim text.toList) = some [.compare .eq v] := by
    obtain ⟨kept, hclosed, hkept⟩ := closeUp_append lead hblank false
    have hwords := filterMap_words (fun c hc => hlead c (hkept c hc)) hbody ht
    rw [termClauses?, htrim, hclosed]
    split
    · next hnil =>
      rw [hnil] at hwords
      cases hwords
    · rw [hwords]
      simp [Term.clauses?, hvalue, Partial.compare?]
  have hgroup : groupClauses? (trim text.toList) = some [.compare .eq v] := by
    rw [groupClauses?, htrim, readHyphen?_eq_none hlead hbody hblank, ← htrim]
    exact hterms
  have hany : [Clause.any] ≠ [.compare .eq v] := by
    intro heq
    cases heq
  rw [parse?, splitBars_of_not_mem hbar]
  simp [hgroup, absorb, hany]

end DepSpec
