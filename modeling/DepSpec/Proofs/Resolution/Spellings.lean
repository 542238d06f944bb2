import DepSpec.Proofs.Repository.Addresses
import DepSpec.Proofs.Resolution.Answers
import DepSpec.Proofs.Specifier.LocalPaths

set_option autoImplicit false

/-! # Spellings of a scheme

What stands before the first colon of a specifier may be spelled in capitals or in small letters
(`SameScheme`). Some of the resolver's tests make it small first, others fold it, some only look at
which of its characters are letters, and some do not look at it at all. There is one lemma for each
of the tests: it finds the same behind two spellings of one scheme. -/

namespace DepSpec

open Text

/-- The same scheme in two spellings: letters and plus signs that differ in letter case only. -/
structure SameScheme (scheme other : List Char) : Prop where
  chars : ∀ c ∈ scheme, c.isAlpha = true ∨ c = '+'
  lower : lowerAscii scheme = lowerAscii other

namespace SameScheme

variable {scheme other : List Char}

/-! ## Characters -/

theorem symm (h : SameScheme scheme other) : SameScheme other scheme := by
  refine ⟨fun d hd => ?_, h.lower.symm⟩
  have hmem : d.toLower ∈ lowerAscii scheme := by
    rw [h.lower]
    exact List.mem_map_of_mem hd
  obtain ⟨c, hc, hcd⟩ := List.mem_map.1 hmem
  have halpha : d.isAlpha = c.isAlpha := by
    rw [← isLower_toLower, ← isLower_toLower, hcd]
  rcases h.chars c hc with hletter | rfl
  · exact Or.inl (halpha.trans hletter)
  · -- what is no letter is no capital, and stays as it is
    have hupper : d.isUpper = false := by
      have hnot : (d.isUpper || d.isLower) = false := halpha
      exact (Bool.or_eq_false_iff.1 hnot).1
    rw [toLower_of_not_isUpper hupper] at hcd
    exact Or.inr hcd.symm

variable (h : SameScheme scheme other)
include h

/-- A character that is no letter and no plus sign is not in a scheme. -/
theorem not_mem {d : Char} (hd : (d.isAlpha || d == '+') = false) : d ∉ scheme := by
  intro hmem
  rw [Bool.or_eq_false_iff, beq_eq_false_iff_ne] at hd
  rcases h.chars d hmem with hletter | hplus
  · rw [hd.1] at hletter
    cases hletter
  · exact hd.2 hplus

theorem ne_colon : ∀ c ∈ scheme, (c == ':') = false :=
  beq_eq_false_of_not_mem (h.not_mem (by decide))

theorem not_blank : ∀ c ∈ scheme, isBlank c = false := by
  intro c hc
  refine isBlank_eq_false (p := fun c => c.isAlpha || c == '+') (by decide) ?_
  rcases h.chars c hc with hletter | rfl
  · rw [hletter, Bool.true_or]
  · rfl

/-- Folding a scheme makes it small. -/
theorem map_foldCase : scheme.map foldCase = lowerAscii scheme := by
  refine map_foldCase_of_lowerAscii rfl (List.all_eq_true.2 fun d hd => ?_)
  obtain ⟨c, hc, rfl⟩ := List.mem_map.1 hd
  rw [decide_eq_true_eq]
  rcases h.chars c hc with hletter | rfl
  · exact toNat_lt_of_isLower ((isLower_toLower c).trans hletter)
  · decide

theorem map_foldCase_eq : scheme.map foldCase = other.map foldCase := by
  rw [h.map_foldCase, h.symm.map_foldCase, h.lower]

theorem length_eq : scheme.length = other.length := by
  simpa [lowerAscii] using congrArg List.length h.lower

theorem all_isAlpha_eq : scheme.all Char.isAlpha = other.all Char.isAlpha := by
  have hall (cs : List Char) : cs.all Char.isAlpha = (lowerAscii cs).all Char.isLower := by
    rw [lowerAscii, List.all_map]
    exact congrArg cs.all (funext fun c => (isLower_toLower c).symm)
  rw [hall, hall, h.lower]

/-! ## Paths and prefixes -/

/-- A scheme in front of a colon can only be a drive letter. -/
theorem isLocalPath_eq (rest : List Char) :
    Resolution.isLocalPath (scheme ++ ':' :: rest) =
      (scheme.length == 1 && scheme.all Char.isAlpha) := by
  have hsign {c : Char} (hc : c ∈ scheme) : c ∉ ['.', '/', '\\', '~'] := by
    intro hmem
    have hsigns : (['.', '/', '\\', '~'].all fun d => !(d.isAlpha || d == '+')) = true := by decide
    have hother := List.all_eq_true.1 hsigns c hmem
    rw [Bool.not_eq_true'] at hother
    exact h.not_mem hother hc
  cases scheme with
  | nil =>
    rw [List.nil_append, Resolution.isLocalPath_cons (by decide)]
    exact Bool.and_false _
  | cons c cs =>
    rw [List.cons_append, Resolution.isLocalPath_cons (hsign List.mem_cons_self)]
    cases cs with
    | nil => simp
    | cons d cs =>
      have hd : (some d == some ':') = false :=
        beq_eq_false_iff_ne.2 fun heq =>
          h.not_mem (d := ':') (by decide) (Option.some.inj heq ▸ by simp)
      rw [List.cons_append, List.head?_cons, hd]
      rfl

theorem isLocalPath_congr (rest : List Char) :
    Resolution.isLocalPath (scheme ++ ':' :: rest) =
      Resolution.isLocalPath (other ++ ':' :: rest) := by
  rw [h.isLocalPath_eq, h.symm.isLocalPath_eq, h.length_eq, h.all_isAlpha_eq]

theorem afterFolded?_congr (name : List Char) (hname : ':' ∉ name) (rest : List Char) :
    afterFolded? (name ++ [':']) (scheme ++ ':' :: rest) =
      afterFolded? (name ++ [':']) (other ++ ':' :: rest) := by
  rw [afterFolded?_append_cons (by decide) hname (h.not_mem (by decide)),
    afterFolded?_append_cons (by decide) hname (h.symm.not_mem (by decide)), h.map_foldCase_eq]

theorem afterFile?_congr (rest : List Char) :
    Resolution.afterFile? (scheme ++ ':' :: rest) = Resolution.afterFile? (other ++ ':' :: rest) :=
  h.afterFolded?_congr "file".toList (by decide) rest

theorem afterAlias?_congr (rest : List Char) :
    Resolution.afterAlias? (scheme ++ ':' :: rest) =
      Resolution.afterAlias? (other ++ ':' :: rest) :=
  h.afterFolded?_congr "npm".toList (by decide) rest

theorem contains_slash_congr (rest : List Char) :
    (scheme ++ ':' :: rest).contains '/' = (other ++ ':' :: rest).contains '/' := by
  have hslash : '/' ∉ scheme := h.not_mem (by decide)
  have hslash' : '/' ∉ other := h.symm.not_mem (by decide)
  rw [Bool.eq_iff_iff, List.contains_iff_mem, List.contains_iff_mem, List.mem_append,
    List.mem_append, or_iff_right hslash, or_iff_right hslash']

omit h in
theorem isTarball_congr (scheme other rest : List Char) :
    Resolution.isTarball (scheme ++ ':' :: rest) = Resolution.isTarball (other ++ ':' :: rest) := by
  rw [isTarball_append scheme (by decide), isTarball_append other (by decide)]

/-! ## URLs -/

theorem isUrl_congr (rest : List Char) :
    Resolution.isUrl (scheme ++ ':' :: rest) = Resolution.isUrl (other ++ ':' :: rest) := by
  rw [Resolution.isUrl_of_scheme h.ne_colon, Resolution.isUrl_of_scheme h.symm.ne_colon,
    h.map_foldCase_eq]

theorem protocolOf_congr (rest : List Char) :
    Resolution.protocolOf (scheme ++ ':' :: rest) =
      Resolution.protocolOf (other ++ ':' :: rest) := by
  rw [Resolution.protocolOf_of_scheme h.ne_colon, Resolution.protocolOf_of_scheme h.symm.ne_colon,
    h.lower]

end SameScheme

/-! ## Repositories -/

namespace Repository

/-- Host and path of a URL on a known host, behind its scheme and colon. -/
def hostedPath? (rest : List Char) : Option (GitHost × List Char) := do
  let (domain, path) ← readAuthority? (← after? "//".toList rest)
  (GitHost.ofDomain? domain).map fun host => (host, path)

theorem readUrl?_of_scheme {scheme : List Char} (h : ∀ c ∈ scheme, (c == ':') = false)
    (rest : List Char) :
    readUrl? (scheme ++ ':' :: rest) =
      if schemes.any (matchesFolded · scheme) then
        (hostedPath? rest).map fun (host, path) => (scheme, host, path)
      else none := by
  rw [readUrl?, cut?_piece h rfl, hostedPath?]
  simp only [Option.bind_eq_bind, Option.bind_some]
  cases after? "//".toList rest with
  | none => simp
  | some authority =>
    rw [Option.bind_some, Option.bind_some]
    cases readAuthority? authority with
    | none => simp
    | some parts =>
      rw [Option.bind_some, Option.bind_some, Option.map_map]
      rfl

/-- The committish stands behind the scheme. -/
theorem splitCommittish_of_scheme {scheme : List Char} (h : '#' ∉ scheme) (rest : List Char) :
    splitCommittish (scheme ++ ':' :: rest) =
      (scheme ++ ':' :: (splitCommittish rest).1, (splitCommittish rest).2) := by
  have hfront : '#' ∉ scheme ++ [':'] := by simp [h]
  rw [List.append_cons, splitCommittish, cut?_append (beq_eq_false_of_not_mem hfront),
    splitCommittish]
  cases cut? (· == '#') rest with
  | none => simp
  | some parts =>
    obtain ⟨body, committish⟩ := parts
    cases committish <;> simp

end Repository

namespace SameScheme

open Repository

variable {scheme other : List Char} (h : SameScheme scheme other)
include h

theorem readShortcut?_congr (body : List Char) :
    readShortcut? (scheme ++ ':' :: body) = readShortcut? (other ++ ':' :: body) := by
  have hempty : scheme.isEmpty = other.isEmpty := by
    simpa [lowerAscii] using congrArg List.isEmpty h.lower
  rw [readShortcut?, readShortcut?, cut?_piece h.ne_colon rfl, cut?_piece h.symm.ne_colon rfl]
  simp only [Option.bind_eq_bind, Option.bind_some, GitHost.ofShortcut?, hempty, h.all_isAlpha_eq,
    h.lower]

/-- A scheme holds no `@`, and the name of a login no colon. -/
theorem readSecureCopy?_eq_none (body : List Char) :
    readSecureCopy? (scheme ++ ':' :: body) = none := by
  have hat : '@' ∉ scheme := h.not_mem (by decide)
  have hafter : after? "git@".toList (scheme ++ ':' :: body) = none := by
    rw [Option.eq_none_iff_forall_ne_some]
    intro rest hrest
    rcases List.append_eq_append_iff.1 (after?_eq_some_iff.1 hrest) with
      ⟨back, hlogin, hback⟩ | ⟨back, rfl, -⟩
    · cases back with
      | nil =>
        rw [List.append_nil] at hlogin
        exact hat (hlogin ▸ by decide)
      | cons c back =>
        obtain ⟨rfl, -⟩ := List.cons.inj hback
        have hcolon : ':' ∈ "git@".toList := by
          rw [hlogin]
          exact List.mem_append_right _ List.mem_cons_self
        exact absurd hcolon (by decide)
    · exact hat (List.mem_append_left _ (by decide))
  rw [readSecureCopy?, hafter]
  rfl

/-- **A repository is read alike behind two spellings of a scheme.** -/
theorem repository_congr (rest : List Char) :
    ofChars? (scheme ++ ':' :: rest) = ofChars? (other ++ ':' :: rest) := by
  have hknown : (schemes.any (matchesFolded · scheme)) = schemes.any (matchesFolded · other) := by
    simp only [matchesFolded, h.map_foldCase_eq]
  have hform : formOfScheme scheme = formOfScheme other := by
    rw [formOfScheme, formOfScheme, h.lower]
  rw [ofChars?, ofChars?, splitCommittish_of_scheme (h.not_mem (by decide)),
    splitCommittish_of_scheme (h.symm.not_mem (by decide))]
  dsimp only
  rw [isShorthand_eq_false (by simp), isShorthand_eq_false (by simp), if_neg Bool.false_ne_true,
    if_neg Bool.false_ne_true, h.readShortcut?_congr, h.readSecureCopy?_eq_none,
    h.symm.readSecureCopy?_eq_none, readUrl?_of_scheme h.ne_colon,
    readUrl?_of_scheme h.symm.ne_colon, hknown]
  cases readShortcut? (other ++ ':' :: (splitCommittish rest).1) with
  | some parts => rfl
  | none =>
    dsimp only
    cases schemes.any (matchesFolded · other) with
    | false => rfl
    | true =>
      cases hostedPath? (splitCommittish rest).1 with
      | none => rfl
      | some parts =>
        show ofPath? _ _ _ (formOfScheme scheme) = ofPath? _ _ _ (formOfScheme other)
        rw [hform]

end SameScheme

end DepSpec
