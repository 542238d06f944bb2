import DepSpec.Proofs.Resolution.Answers
import DepSpec.Proofs.Text.LetterCase
import DepSpec.Proofs.Text.Pieces

set_option autoImplicit false

/-! # Names and specifiers in one argument

An argument is a valid name, an `@` and a specifier, and it is taken apart at that `@`
(`Argument.ofChars_append`): a name holds no other `@` than the one in front of its scope, and no
colon, so that the argument is never taken for a URL. Only a name that ends like an archive, or an
argument in secure-copy form, is read otherwise. -/

namespace DepSpec

open Text

/-! ## The characters of a name -/

namespace PackageName

/-- The characters of a name behind the `@` of its scope. -/
def isNameChar (c : Char) : Bool := c == '/' || isUriSafe c

theorem isNameChar_of_isUriSafe {c : Char} (h : isUriSafe c = true) : isNameChar c = true := by
  simp [isNameChar, h]

theorem ne_of_isNameChar {c d : Char} (hc : isNameChar c = true) (hd : isNameChar d = false) :
    c ≠ d := by
  rintro rfl
  rw [hc] at hd
  cases hd

theorem isNameChar_of_isScoped {name : List Char} (h : isScoped name = true) :
    ∃ rest, name = '@' :: rest ∧ ∀ c ∈ rest, isNameChar c = true := by
  unfold isScoped at h
  split at h
  · next rest =>
    refine ⟨rest, rfl, ?_⟩
    split at h
    · next scope base hsplit =>
      simp only [Bool.and_eq_true] at h
      obtain ⟨⟨-, hscope⟩, hbase⟩ := h
      intro c hc
      rcases mem_splitWhere (· == '/') hc with hslash | ⟨piece, hpiece, hmem⟩
      · simp [isNameChar, hslash]
      · apply isNameChar_of_isUriSafe
        rw [← splitSlashes, hsplit] at hpiece
        rcases List.mem_cons.1 hpiece with rfl | hpiece
        · exact List.all_eq_true.1 hscope c hmem
        · obtain rfl := List.mem_singleton.1 hpiece
          exact List.all_eq_true.1 hbase c hmem
    · cases h
  · cases h

/-- A rule that is broken is told before the later ones. -/
theorem isNone_rule {broken : Prop} [Decidable broken] {fault : NameFault}
    {later : Option NameFault} :
    (if broken then some fault else later).isNone = true ↔ ¬broken ∧ later.isNone = true := by
  split
  · next h => simp [h]
  · next h => simp [h]

/-- A valid name breaks none of the rules. -/
theorem isValid_iff {name : List Char} :
    isValid name = true ↔ name ≠ [] ∧ name.head? ≠ some '.' ∧ name.head? ≠ some '_' ∧
      trim name = name ∧ lowerAscii name ∉ reservedNames ∧
      (name.all isUriSafe = true ∨ isScoped name = true) := by
  simp only [isValid, fault?, isNone_rule, Option.isNone_none, and_true, List.isEmpty_iff,
    beq_iff_eq, bne_iff_ne, ne_eq, not_not, List.contains_iff_mem, Bool.not_eq_true',
    Bool.not_eq_false, Bool.or_eq_true]

/-- A valid name is made of safe characters, or of a scope and a base. -/
theorem isValid_cases {name : List Char} (h : isValid name = true) :
    (name ≠ [] ∧ ∀ c ∈ name, isUriSafe c = true) ∨
      ∃ rest, name = '@' :: rest ∧ ∀ c ∈ rest, isNameChar c = true := by
  obtain ⟨hne, -, -, -, -, hsafe | hscoped⟩ := isValid_iff.1 h
  · exact Or.inl ⟨hne, List.all_eq_true.1 hsafe⟩
  · exact Or.inr (isNameChar_of_isScoped hscoped)

/-- A name holds no colon. -/
theorem ne_colon_of_isValid {name : List Char} (h : isValid name = true) :
    ∀ c ∈ name, c ≠ ':' := by
  intro c hc
  rcases isValid_cases h with ⟨-, hsafe⟩ | ⟨rest, rfl, hrest⟩
  · exact ne_of_isNameChar (isNameChar_of_isUriSafe (hsafe c hc)) (by decide)
  · rcases List.mem_cons.1 hc with rfl | hc
    · decide
    · exact ne_of_isNameChar (hrest c hc) (by decide)

end PackageName

open PackageName Resolution

theorem checkName_eq_ok_iff {name : String} :
    checkName (some name) = .ok () ↔ isValid name.toList = true := by
  rw [isValid, Option.isNone_iff_eq_none, checkName]
  split
  · next h => simp [h]
  · next h => simp [h]

/-! ## Taking an argument apart -/

namespace Resolution

/-- No scheme holds an `@`. -/
theorem isUrl_append_at {front : List Char} (h : ∀ c ∈ front, c ≠ ':') (rest : List Char) :
    isUrl (front ++ '@' :: rest) = false := by
  have hfront : ∀ c ∈ front ++ ['@'], (c == ':') = false := by
    intro c hc
    rcases List.mem_append.1 hc with hc | hc
    · simpa using h c hc
    · rw [List.mem_singleton.1 hc]
      decide
  rw [isUrl, List.append_cons, cut?_append hfront]
  cases cut? (· == ':') rest with
  | none => rfl
  | some cut =>
    dsimp only [Option.map_some]
    -- The `@` is no letter, and what is taken off as `git+` does not hold it.
    generalize hscheme : front ++ ['@'] ++ cut.1 = scheme
    have hat : '@' ∈ scheme := by simp [← hscheme]
    have htransport : '@' ∈ (afterFolded? "git+".toList scheme).getD scheme := by
      cases hafter : afterFolded? "git+".toList scheme with
      | none => exact hat
      | some transport => exact mem_of_afterFolded? hafter hat (by decide)
    rw [Bool.and_eq_false_iff]
    right
    rw [List.all_eq_false]
    exact ⟨'@', htransport, by decide⟩

end Resolution

namespace Argument

/-- The `@` behind a valid name is the one that ends it. -/
theorem splitName?_append {name : List Char} (h : isValid name = true) (spec : List Char) :
    splitName? (name ++ '@' :: spec) = some (name, spec) := by
  have hchar {c : Char} (hc : isNameChar c = true) : (c == '@') = false :=
    beq_eq_false_iff_ne.2 (ne_of_isNameChar hc (by decide))
  rcases isValid_cases h with ⟨hne, hsafe⟩ | ⟨rest, rfl, hrest⟩
  · have hname : ∀ c ∈ name, (c == '@') = false :=
      fun c hc => hchar (isNameChar_of_isUriSafe (hsafe c hc))
    have hcut : cut? (· == '@') (name ++ '@' :: spec) = some (name, spec) :=
      cut?_piece hname (by decide) spec
    cases name with
    | nil => exact absurd rfl hne
    | cons c cs =>
      have hc : c ≠ '@' := by simpa using hname c List.mem_cons_self
      rw [List.cons_append] at hcut ⊢
      rw [← hcut, splitName?]
      exact fun _ heq => hc (List.cons.inj heq).1
  · rw [List.cons_append, splitName?, cut?_piece (fun c hc => hchar (hrest c hc)) (by decide)]
    rfl

/-- A valid name is a path only if it ends like an archive. -/
theorem isPathLike_eq_false {name : List Char} (h : isValid name = true)
    (harchive : isTarball name = false) : isPathLike name = false := by
  rcases isValid_cases h with ⟨-, hsafe⟩ | ⟨rest, rfl, -⟩
  · have hslash : '/' ∉ name := fun hmem => absurd (hsafe '/' hmem) (by decide)
    simp [isPathLike, hslash, harchive]
  · rfl

/-- **A name and a specifier with an `@` between them are taken apart again.** -/
theorem ofChars_append {name spec : List Char} (h : isValid name = true)
    (harchive : isTarball name = false) (haddress : isSecureCopy (name ++ '@' :: spec) = false) :
    ofChars (name ++ '@' :: spec) = .named name spec := by
  have hurl := isUrl_append_at (ne_colon_of_isValid h) spec
  simp only [ofChars, hurl, haddress, splitName?_append h, Option.map_some, Option.getD_some,
    isPathLike_eq_false h harchive, if_neg Bool.false_ne_true]

end Argument

end DepSpec
