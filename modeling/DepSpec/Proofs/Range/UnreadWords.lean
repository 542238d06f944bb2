import DepSpec.Proofs.Range.Disjunction
import DepSpec.Proofs.Range.LooseVersions

set_option autoImplicit false

/-! # Words that are not read

No comparator holds a colon, so a word with a colon in it is dropped from its group, and it is no end
of a hyphen range either. So it makes no difference what stands before the first colon of a range
text, as long as it belongs to the word with the colon (`ParsedRange.parse?_of_scheme`): neither a
blank nor a bar may stand there. -/

namespace DepSpec

open Text

variable {front cs : List Char}

/-! ## Comparators -/

theorem PartialText.ofParts?_eq_none (h : ':' ∈ cs) : ofParts? cs = none := by
  rw [Option.eq_none_iff_forall_ne_some]
  intro t ht
  exact absurd (isVersionChar_of_ofParts? ht ':' h) (by decide)

theorem PartialText.ofChars?_eq_none (h : ':' ∈ cs) : ofChars? cs = none := by
  refine ofParts?_eq_none ?_
  rw [← List.takeWhile_append_dropWhile (p := isLead) (l := cs)] at h
  rcases List.mem_append.1 h with hlead | hrest
  · exact absurd (List.all_eq_true.1 List.all_takeWhile ':' hlead) (by decide)
  · exact hrest

theorem colon_mem_readOperator (h : ':' ∈ cs) : ':' ∈ (readOperator cs).2 := by
  unfold readOperator
  split <;> simpa using h

/-- A word with a colon in it spells no comparator. -/
theorem Term.read?_eq_none (h : ':' ∈ cs) : read? cs = none := by
  have hnone {cs : List Char} {f : PartialText → Term} (hcs : ':' ∈ cs) :
      (PartialText.ofChars? cs).map f = none := by
    rw [PartialText.ofChars?_eq_none hcs]
    rfl
  unfold read?
  split
  · exact hnone (by simpa using h)
  · exact hnone (by simpa using h)
  · exact hnone (by simpa using h)
  · exact hnone (colon_mem_readOperator h)

/-! ## Groups -/

/-- The first word of a text is the one with the colon in it. -/
theorem exists_words (cs : List Char) :
    ∃ word more, ∀ front : List Char, (∀ c ∈ front, isBlank c = false) →
      words (closeUp false (front ++ ':' :: cs)) = (front ++ ':' :: word) :: more := by
  obtain ⟨word, pieces, hpieces⟩ :=
    List.exists_cons_of_ne_nil (splitWhere_ne_nil isBlank (closeUp (isOperatorChar ':') cs))
  refine ⟨word, pieces.filter fun w => !w.isEmpty, fun front hfront => ?_⟩
  have hword : ∀ c ∈ front ++ [':'], isBlank c = false :=
    List.forall_mem_append.2 ⟨hfront, List.forall_mem_singleton.2 (by decide)⟩
  rw [closeUp_word hfront (by decide), List.append_cons, words,
    splitWhere_append_of_not_mem hword, hpieces, List.modifyHead_cons, List.filter_cons_of_pos,
    List.append_assoc]
  · rfl
  · simp

theorem termClauses?_of_scheme (hfront : ∀ c ∈ front, isBlank c = false) (cs : List Char) :
    termClauses? (front ++ ':' :: cs) = termClauses? (':' :: cs) := by
  obtain ⟨word, more, hwords⟩ := exists_words cs
  have hnone (front : List Char) : Term.read? (front ++ ':' :: word) = none :=
    Term.read?_eq_none (by simp)
  have hplain := hwords [] nofun
  rw [List.nil_append] at hplain
  rw [termClauses?, termClauses?, hwords front hfront, hplain]
  dsimp only
  rw [List.filterMap_cons_none (hnone front), List.filterMap_cons_none (hnone [])]

theorem readHyphen?_of_scheme (hfront : ∀ c ∈ front, isBlank c = false) (cs : List Char) :
    readHyphen? (front ++ ':' :: cs) = none := by
  have hlead : (front ++ ':' :: cs).dropWhile PartialText.isLead =
      front.dropWhile PartialText.isLead ++ ':' :: cs := by
    rw [List.dropWhile_append, List.dropWhile_cons_of_neg (by decide)]
    split
    · next hnil => rw [List.isEmpty_iff.1 hnil, List.nil_append]
    · rfl
  have hword : ∀ c ∈ front.dropWhile PartialText.isLead, (!isBlank c) = true := fun c hc => by
    rw [hfront c ((List.dropWhile_suffix _).subset hc)]
    rfl
  have hcolon : ':' ∈ (front.dropWhile PartialText.isLead ++ ':' :: cs).takeWhile
      fun c => !isBlank c := by
    rw [List.takeWhile_append_of_pos hword, List.takeWhile_cons_of_pos (by decide)]
    simp
  rw [readHyphen?, hlead, PartialText.ofParts?_eq_none hcolon]
  rfl

theorem groupClauses?_of_scheme (hfront : ∀ c ∈ front, isBlank c = false) (cs : List Char) :
    groupClauses? (trim (front ++ ':' :: cs)) = groupClauses? (trim (':' :: cs)) := by
  have hplain : trim (':' :: cs) = ':' :: trimEnd cs :=
    @trim_append_cons [] nofun ':' (by decide) cs
  have hnone : readHyphen? (':' :: trimEnd cs) = none :=
    @readHyphen?_of_scheme [] nofun (trimEnd cs)
  rw [trim_append_cons hfront (by decide), hplain, groupClauses?, groupClauses?,
    readHyphen?_of_scheme hfront, hnone, termClauses?_of_scheme hfront]

/-! ## Ranges -/

theorem splitBars_append_of_not_mem (h : '|' ∉ front) (cs : List Char) :
    splitBars (front ++ cs) = (splitBars cs).modifyHead (front ++ ·) := by
  induction front with
  | nil => exact (congrFun List.modifyHead_id _).symm
  | cons c front ih =>
    obtain ⟨hc, hfront⟩ := List.ne_and_not_mem_of_not_mem_cons h
    obtain ⟨piece, pieces, hpieces⟩ := List.exists_cons_of_ne_nil (splitBars_ne_nil cs)
    rw [List.cons_append, splitBars, ih hfront, hpieces]
    · rfl
    · rintro rest rfl -
      exact hc rfl

/-- **What stands before the first colon of a range is not read**, if it is all one word. -/
theorem ParsedRange.parse?_of_scheme (hfront : ∀ c ∈ front, isBlank c = false) (hbar : '|' ∉ front)
    (cs : List Char) :
    parse? (String.ofList (front ++ ':' :: cs)) = parse? (String.ofList (':' :: cs)) := by
  obtain ⟨group, groups, hgroups⟩ := List.exists_cons_of_ne_nil (splitBars_ne_nil cs)
  have hsplit (front : List Char) (hbar : '|' ∉ front) :
      splitBars (front ++ ':' :: cs) = (front ++ ':' :: group) :: groups := by
    have hword : '|' ∉ front ++ [':'] := by simp [hbar]
    rw [List.append_cons, splitBars_append_of_not_mem hword, hgroups, List.modifyHead_cons,
      List.append_assoc]
    rfl
  have hplain : splitBars (':' :: cs) = (':' :: group) :: groups := hsplit [] nofun
  rw [parse?, parse?, String.toList_ofList, String.toList_ofList, hsplit front hbar, hplain,
    List.mapM_cons, List.mapM_cons, groupClauses?_of_scheme hfront]

end DepSpec
