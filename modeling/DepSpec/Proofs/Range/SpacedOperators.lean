import DepSpec.Proofs.Range.OneGroup
import Mathlib.Data.List.Chain

set_option autoImplicit false

/-! # Blanks behind operators

A list of comparators may be typed with blanks between an operator and its version. They are closed up
before the text is cut into words (`TypedComparator.closeUp_chars`), so that every operator is read
with its own version and with nothing else: the group is what the comparators stand for one by one
(`TypedComparator.groupClauses?_intercalate`). No blank that is typed makes a hyphen range of the list, since
no version and no operator begins with a hyphen (`NoHyphenWord`). -/

namespace DepSpec

open Text

/-! ## Comparators as they are typed -/

/-- What may stand in front of a partial version. -/
def comparatorSigns : List String := ["", "=", ">", ">=", "<", "<=", "^", "~", "~>"]

/-- A sign, blanks behind it, and the text of a partial version without blanks. -/
structure TypedComparator where
  sign : String
  blanks : List Char
  version : List Char
  sign_mem : sign ∈ comparatorSigns
  isBlank_blanks : ∀ c ∈ blanks, isBlank c = true
  /-- Blanks are typed behind a sign only. -/
  blanks_eq_nil : sign = "" → blanks = []
  isBlank_version : ∀ c ∈ version, isBlank c = false
  isSome_version : (PartialText.ofChars? version).isSome = true

namespace TypedComparator

/-- The characters as they are typed. -/
def chars (t : TypedComparator) : List Char := t.sign.toList ++ (t.blanks ++ t.version)

/-- The characters without the blanks. -/
def word (t : TypedComparator) : List Char := t.sign.toList ++ t.version

/-- The same comparator without the blanks. -/
def closed (t : TypedComparator) : TypedComparator :=
  { t with blanks := [], isBlank_blanks := nofun, blanks_eq_nil := fun _ => rfl }

/-- Comparators with a space between them. -/
def text (ts : List TypedComparator) : String := String.ofList ([' '].intercalate (ts.map chars))

variable (t : TypedComparator)

/-! ## Signs and versions -/

theorem isOperatorChar_sign : ∀ c ∈ t.sign.toList, isOperatorChar c = true := by
  have hsigns : ∀ sign ∈ comparatorSigns, sign.toList.all isOperatorChar = true := by decide
  exact List.all_eq_true.1 (hsigns t.sign t.sign_mem)

/-- A version is lead characters, then parts. -/
theorem exists_version : ∃ lead parts p, t.version = lead ++ parts ∧
    (∀ c ∈ lead, IsWordLead c) ∧ PartialText.ofParts? parts = some p := by
  obtain ⟨p, hp⟩ := Option.isSome_iff_exists.1 t.isSome_version
  refine ⟨_, _, p, List.takeWhile_append_dropWhile.symm, fun c hc => ⟨?_, ?_⟩, hp⟩
  · exact List.all_eq_true.1 List.all_takeWhile c hc
  · exact t.isBlank_version c ((List.takeWhile_prefix _).subset hc)

theorem version_chars : ∀ c ∈ t.version, c = '=' ∨ isVersionChar c = true := by
  obtain ⟨lead, parts, p, hversion, hlead, hparts⟩ := t.exists_version
  intro c hc
  rw [hversion] at hc
  rcases List.mem_append.1 hc with hc | hc
  · rcases (hlead c hc).eq with rfl | rfl
    · exact Or.inr (by decide)
    · exact Or.inl rfl
  · exact Or.inr (PartialText.isVersionChar_of_ofParts? hparts c hc)

theorem isTermChar_version : ∀ c ∈ t.version, IsTermChar c := by
  intro c hc
  rcases t.version_chars c hc with rfl | hversion
  · exact Or.inl (by decide)
  · exact Or.inr hversion

theorem isTermChar_word : ∀ c ∈ t.word, IsTermChar c :=
  List.forall_mem_append.2 ⟨fun c hc => Or.inl (t.isOperatorChar_sign c hc), t.isTermChar_version⟩

/-- A version ends with a character of a version, and so with none of an operator. -/
theorem version_eq_concat : ∃ front c, t.version = front ++ [c] ∧ isVersionChar c = true := by
  obtain ⟨lead, parts, p, hversion, -, hparts⟩ := t.exists_version
  have hne := PartialText.ne_nil_of_ofParts? hparts
  refine ⟨lead ++ parts.dropLast, parts.getLast hne, ?_,
    PartialText.isVersionChar_of_ofParts? hparts _ (List.getLast_mem hne)⟩
  rw [hversion, List.append_assoc, List.dropLast_append_getLast]

theorem version_ne_nil : t.version ≠ [] := by
  obtain ⟨front, c, hversion, -⟩ := t.version_eq_concat
  simp [hversion]

theorem word_ne_nil : t.word ≠ [] := by simp [word, t.version_ne_nil]

theorem head_version : ∀ c ∈ t.version.head?, c ≠ '-' := by
  obtain ⟨lead, parts, p, hversion, hlead, hparts⟩ := t.exists_version
  rw [hversion]
  cases lead with
  | nil =>
    obtain ⟨c, rest, rfl, hc⟩ := PartialText.exists_head_of_ofParts? hparts
    rintro c ⟨⟩ rfl
    exact absurd hc (by decide)
  | cons d lead =>
    rintro c ⟨⟩ rfl
    exact absurd (hlead '-' List.mem_cons_self).1 (by decide)

/-! ## Reading one comparator -/

theorem sign_cases : (∃ op : Operator, t.sign ∈ op.symbols) ∨
    ∃ kind : Compatibility, t.sign ∈ kind.symbols := by
  have hsign := t.sign_mem
  simp only [comparatorSigns, List.mem_cons, List.not_mem_nil, or_false] at hsign
  rcases hsign with h | h | h | h | h | h | h | h | h <;> rw [h]
  · exact Or.inl ⟨.eq, by decide⟩
  · exact Or.inl ⟨.eq, by decide⟩
  · exact Or.inl ⟨.gt, by decide⟩
  · exact Or.inl ⟨.gte, by decide⟩
  · exact Or.inl ⟨.lt, by decide⟩
  · exact Or.inl ⟨.lte, by decide⟩
  · exact Or.inr ⟨.caret, by decide⟩
  · exact Or.inr ⟨.tilde, by decide⟩
  · exact Or.inr ⟨.tilde, by decide⟩

/-- A version that begins with an equality sign lends it to a `>` or `<` in front. -/
theorem exists_read?_of_equal {op : Operator} (hop : op = .gt ∨ op = .lt) (hsign : t.sign ∈ op.symbols)
    (hequal : t.version.head? = some '=') : ∃ term, Term.read? t.word = some term := by
  obtain ⟨p, hp⟩ := Option.isSome_iff_exists.1 t.isSome_version
  obtain ⟨cs, hversion⟩ := List.head?_eq_some_iff.1 hequal
  rw [hversion, ← List.singleton_append, ofChars?_append (List.forall_mem_singleton.2 rfl)] at hp
  rcases hop with rfl | rfl
  · refine ⟨.compare .gte p, ?_⟩
    rw [word, List.mem_singleton.1 hsign, hversion]
    exact congrArg (Option.map (Term.compare .gte)) hp
  · refine ⟨.compare .lte p, ?_⟩
    rw [word, List.mem_singleton.1 hsign, hversion]
    exact congrArg (Option.map (Term.compare .lte)) hp

theorem exists_read? : ∃ term, Term.read? t.word = some term := by
  obtain ⟨p, hp⟩ := Option.isSome_iff_exists.1 t.isSome_version
  rcases t.sign_cases with ⟨op, hsign⟩ | ⟨kind, hsign⟩
  · by_cases hequal : (op = .gt ∨ op = .lt) ∧ t.version.head? = some '='
    · exact t.exists_read?_of_equal hequal.1 hsign hequal.2
    · have hhead : ∀ c ∈ t.version.head?, c = '=' ∨ isOperatorChar c = false := fun c hc =>
        (t.version_chars c (List.mem_of_mem_head? hc)).imp_right isOperatorChar_of_isVersionChar
      refine ⟨.compare op p, ?_⟩
      rw [word, Term.read?_symbols hsign hhead fun hop heq => hequal ⟨hop, heq⟩, hp]
      rfl
  · have hgt : '>' ∉ t.version := fun hmem => absurd (t.version_chars '>' hmem) (by decide)
    refine ⟨kind.term p, ?_⟩
    rw [word, Term.read?_compatible hsign hgt, hp]
    rfl

/-- A comparator by itself is a group. -/
theorem groupClauses?_word {term : Term} (h : Term.read? t.word = some term) :
    groupClauses? t.word = term.clauses? :=
  groupClauses?_of_term t.word_ne_nil t.isTermChar_word h

/-! ## Closing up -/

theorem closeUp_version (joined : Bool) (rest : List Char) :
    closeUp joined (t.version ++ rest) = t.version ++ closeUp false rest := by
  obtain ⟨front, c, hversion, hc⟩ := t.version_eq_concat
  have hfront : ∀ d ∈ front, isBlank d = false :=
    fun d hd => t.isBlank_version d (hversion ▸ List.mem_append_left _ hd)
  rw [hversion, List.append_assoc, List.singleton_append,
    closeUp_word hfront (isBlank_of_isVersionChar hc), isOperatorChar_of_isVersionChar hc]
  simp

theorem closeUp_blanks {blanks : List Char} (h : ∀ c ∈ blanks, isBlank c = true)
    (rest : List Char) : closeUp true (blanks ++ rest) = closeUp true rest := by
  induction blanks with
  | nil => rfl
  | cons c blanks ih =>
    obtain ⟨hc, hblanks⟩ := List.forall_mem_cons.1 h
    rw [List.cons_append, closeUp, hc, Bool.and_true, if_pos rfl, ih hblanks]

/-- **A sign is read with its own version**, whatever blanks are between them. -/
theorem closeUp_chars (joined : Bool) (rest : List Char) :
    closeUp joined (t.chars ++ rest) = t.word ++ closeUp false rest := by
  rw [chars, word, List.append_assoc, List.append_assoc, List.append_assoc]
  cases hsign : t.sign.toList using List.reverseRecOn with
  | nil =>
    have hblanks : t.blanks = [] := t.blanks_eq_nil (String.toList_eq_nil_iff.1 hsign)
    rw [hblanks]
    exact t.closeUp_version joined rest
  | append_singleton front c =>
    have hoperator := t.isOperatorChar_sign
    rw [hsign] at hoperator
    have hblank {d : Char} (hd : isOperatorChar d = true) : isBlank d = false :=
      isBlank_eq_false (by decide) hd
    have hc : isOperatorChar c = true := hoperator c List.mem_concat_self
    rw [List.append_assoc, List.singleton_append,
      closeUp_word (fun d hd => hblank (hoperator d (List.mem_append_left _ hd))) (hblank hc), hc,
      closeUp_blanks t.isBlank_blanks, t.closeUp_version]
    simp

theorem closeUp_intercalate_chars (ts : List TypedComparator) :
    closeUp false ([' '].intercalate (ts.map chars)) = [' '].intercalate (ts.map word) := by
  induction ts with
  | nil => rfl
  | cons t ts ih =>
    cases ts with
    | nil => simpa [closeUp] using t.closeUp_chars false []
    | cons t' ts =>
      rw [List.map_cons, List.map_cons, List.map_cons, List.map_cons, List.intercalate_cons_cons,
        List.intercalate_cons_cons, List.append_assoc, t.closeUp_chars, List.append_assoc,
        List.singleton_append, closeUp]
      exact congrArg (t.word ++ ' ' :: ·) ih

theorem words_intercalate_word (ts : List TypedComparator) :
    words ([' '].intercalate (ts.map word)) = ts.map word := by
  refine words_intercalate (fun w hw => ?_) fun w hw => ?_
  · obtain ⟨t, -, rfl⟩ := List.mem_map.1 hw
    exact t.word_ne_nil
  · obtain ⟨t, -, rfl⟩ := List.mem_map.1 hw
    exact fun c hc => (t.isTermChar_word c hc).isBlank_eq_false

end TypedComparator

/-! ## Hyphens -/

/-- No word of a text begins with a hyphen: there is none at its front, and none behind a blank. -/
def NoHyphenWord (cs : List Char) : Prop :=
  (' ' :: cs).IsChain fun c d => isBlank c = true → d ≠ '-'

namespace NoHyphenWord

variable {cs ds : List Char}

theorem head (h : NoHyphenWord cs) : ∀ c ∈ cs.head?, c ≠ '-' :=
  fun c hc => (List.isChain_cons.1 h).1 c hc rfl

theorem append (hcs : NoHyphenWord cs) (hds : NoHyphenWord ds) : NoHyphenWord (cs ++ ds) :=
  List.IsChain.append hcs hds.tail fun _ _ d hd _ => hds.head d hd

theorem of_not_blank (h : ∀ c ∈ cs, isBlank c = false) (hhead : ∀ c ∈ cs.head?, c ≠ '-') :
    NoHyphenWord cs := by
  refine List.isChain_cons.2 ⟨fun c hc _ => hhead c hc, ?_⟩
  refine (List.pairwise_of_forall_mem_list fun c hc d _ hblank => ?_).isChain
  rw [h c hc] at hblank
  cases hblank

theorem of_blank (h : ∀ c ∈ cs, isBlank c = true) : NoHyphenWord cs := by
  have hne : ∀ c ∈ cs, c ≠ '-' := by
    rintro c hc rfl
    exact absurd (h '-' hc) (by decide)
  refine List.isChain_cons.2 ⟨fun c hc _ => hne c (List.mem_of_mem_head? hc), ?_⟩
  refine (List.pairwise_of_forall_mem_list fun c _ d hd => ?_).isChain
  exact fun _ => hne d hd

/-- Behind blanks the text does not go on with a hyphen. -/
theorem dropWhile_isBlank_ne (h : NoHyphenWord cs) {tail : List Char} (htail : tail <:+ cs)
    (hblank : ∀ c ∈ tail.head?, isBlank c = true) (rest : List Char) :
    tail.dropWhile isBlank ≠ '-' :: rest := by
  intro hdrop
  have hsplit : tail = tail.takeWhile isBlank ++ '-' :: rest := by
    rw [← hdrop, List.takeWhile_append_dropWhile]
  cases hfront : tail.takeWhile isBlank using List.reverseRecOn with
  | nil =>
    rw [hfront, List.nil_append] at hsplit
    rw [hsplit] at hblank
    exact absurd (hblank '-' rfl) (by decide)
  | append_singleton front c =>
    have hc : isBlank c = true :=
      List.all_eq_true.1 List.all_takeWhile c (hfront ▸ List.mem_concat_self)
    rw [hfront, List.append_assoc, List.singleton_append] at hsplit
    have hchain := h.tail.suffix htail
    exact List.isChain_iff_forall_rel_of_append_cons_cons.1 hchain hsplit hc rfl

/-- So there is no hyphen range. -/
theorem readHyphen?_eq_none (h : NoHyphenWord cs) : readHyphen? cs = none := by
  rw [Option.eq_none_iff_forall_ne_some]
  intro ends hends
  unfold readHyphen? at hends
  obtain ⟨lower, -, hends⟩ := Option.bind_eq_some_iff.1 hends
  split at hends
  · next c rest heq =>
    refine h.dropWhile_isBlank_ne ?_ ?_ _ heq
    · exact (List.dropWhile_suffix _).trans (List.dropWhile_suffix _)
    · intro c hc
      have hnot := List.head?_dropWhile_not (fun c => !isBlank c) (cs.dropWhile PartialText.isLead)
      rw [Option.mem_def.1 hc] at hnot
      simpa using hnot
  · cases hends

end NoHyphenWord

/-! ## Lists of comparators -/

namespace TypedComparator

theorem noHyphenWord_chars (t : TypedComparator) : NoHyphenWord t.chars := by
  have hsign : NoHyphenWord t.sign.toList :=
    .of_not_blank (fun c hc => isBlank_eq_false (by decide) (t.isOperatorChar_sign c hc))
      fun c hc heq => absurd (t.isOperatorChar_sign c (List.mem_of_mem_head? hc)) (heq ▸ by decide)
  exact hsign.append ((NoHyphenWord.of_blank t.isBlank_blanks).append
    (.of_not_blank t.isBlank_version t.head_version))

theorem noHyphenWord_intercalate (ts : List TypedComparator) :
    NoHyphenWord ([' '].intercalate (ts.map chars)) := by
  induction ts with
  | nil => exact .of_blank nofun
  | cons t ts ih =>
    cases ts with
    | nil => simpa using t.noHyphenWord_chars
    | cons t' ts =>
      rw [List.map_cons, List.map_cons, List.intercalate_cons_cons]
      exact (t.noHyphenWord_chars.append (.of_blank (List.forall_mem_singleton.2 rfl))).append ih

theorem isGroupText_chars (t : TypedComparator) : IsGroupText t.chars := by
  have hversion := isGroupText_of_isTermChar t.version_ne_nil t.isTermChar_version
  by_cases hsign : t.sign = ""
  · rw [chars, t.blanks_eq_nil hsign, hsign]
    exact hversion
  · have hne : t.sign.toList ≠ [] := mt String.toList_eq_nil_iff.1 hsign
    have hbar : '|' ∉ t.blanks := fun hmem => absurd (t.isBlank_blanks '|' hmem) (by decide)
    rw [chars, ← List.append_assoc]
    exact (isGroupText_of_isTermChar hne fun c hc => Or.inl (t.isOperatorChar_sign c hc)).append
      hversion hbar

/-- Every word is read, and as the group that it is by itself. -/
theorem mapM_clauses?_word (ts : List TypedComparator) :
    ((ts.map word).filterMap Term.read?).mapM Term.clauses? = (ts.map word).mapM groupClauses? := by
  induction ts with
  | nil => rfl
  | cons t ts ih =>
    obtain ⟨term, hread⟩ := t.exists_read?
    rw [List.map_cons, List.filterMap_cons_some hread, List.mapM_cons, List.mapM_cons,
      t.groupClauses?_word hread, ih]

/-- **A list of comparators stands for what each of them stands for**, whatever blanks are typed. -/
theorem groupClauses?_intercalate {ts : List TypedComparator} (hne : ts ≠ []) :
    groupClauses? ([' '].intercalate (ts.map chars)) =
      ((ts.map word).mapM groupClauses?).map List.flatten := by
  rw [groupClauses?, (noHyphenWord_intercalate ts).readHyphen?_eq_none]
  dsimp only
  rw [termClauses?, closeUp_intercalate_chars, words_intercalate_word, ← mapM_clauses?_word]
  cases ts with
  | nil => exact absurd rfl hne
  | cons t ts => rfl

end TypedComparator

/-! ## Range texts -/

namespace TypedComparator

theorem toList_text (ts : List TypedComparator) :
    (text ts).toList = [' '].intercalate (ts.map chars) := String.toList_ofList

theorem ne_nil_of_groupClauses? {t : TypedComparator} {group : List Clause}
    (h : groupClauses? t.word = some group) : group ≠ [] := by
  obtain ⟨term, hread⟩ := t.exists_read?
  rw [t.groupClauses?_word hread] at h
  exact Term.clauses?_ne_nil h

/-- **Comparators are read one by one.** -/
theorem parse?_text_iff {ts : List TypedComparator} (hne : ts ≠ []) {range : ParsedRange} :
    ParsedRange.parse? (text ts) = some range ↔
      ∃ groups, List.Forall₂ (fun t group => groupClauses? t.word = some group) ts groups ∧
        range = [groups.flatten] := by
  have hgroup (group : List Clause) : groupClauses? (text ts).toList = some group ↔
      ∃ groups, List.Forall₂ (fun t group => groupClauses? t.word = some group) ts groups ∧
        groups.flatten = group := by
    rw [toList_text, groupClauses?_intercalate hne, Option.map_eq_some_iff]
    simp only [mapM_eq_some_iff, List.forall₂_map_left_iff]
  have htext : IsGroupText (text ts).toList := by
    rw [toList_text]
    refine isGroupText_intercalate (by simpa using hne) fun w hw => ?_
    obtain ⟨t, -, rfl⟩ := List.mem_map.1 hw
    exact t.isGroupText_chars
  have hnonempty : ∀ group, groupClauses? (text ts).toList = some group → group ≠ [] := by
    intro group h
    obtain ⟨groups, hgroups, rfl⟩ := (hgroup group).1 h
    cases hgroups with
    | nil => exact absurd rfl hne
    | cons hfirst _ => simp [ne_nil_of_groupClauses? hfirst]
  rw [ParsedRange.parse?_eq_some_iff_of_group htext hnonempty]
  constructor
  · rintro ⟨group, h, rfl⟩
    obtain ⟨groups, hgroups, rfl⟩ := (hgroup group).1 h
    exact ⟨groups, hgroups, rfl⟩
  · rintro ⟨groups, hgroups, rfl⟩
    exact ⟨_, (hgroup _).2 ⟨groups, hgroups, rfl⟩, rfl⟩

/-- The blanks make no difference. -/
theorem parse?_closed (ts : List TypedComparator) :
    ParsedRange.parse? (text (ts.map closed)) = ParsedRange.parse? (text ts) := by
  cases ts with
  | nil => rfl
  | cons t ts =>
    refine Option.ext fun range => ?_
    rw [parse?_text_iff (by simp), parse?_text_iff (by simp)]
    simp only [List.forall₂_map_left_iff]
    exact Iff.rfl

/-- One comparator is read as its group. -/
theorem parse?_singleton_iff (t : TypedComparator) {group : List Clause} :
    ParsedRange.parse? (text [t.closed]) = some [group] ↔ groupClauses? t.word = some group := by
  rw [parse?_text_iff (List.cons_ne_nil _ _)]
  simp only [List.forall₂_cons_left_iff, List.forall₂_nil_left_iff]
  constructor
  · rintro ⟨_, ⟨group', _, hgroup, rfl, rfl⟩, h⟩
    cases h
    rwa [List.flatten_singleton]
  · intro hgroup
    exact ⟨[group], ⟨group, [], hgroup, rfl, rfl⟩, by rw [List.flatten_singleton]⟩

end TypedComparator

namespace Capabilities

open TypedComparator

/-- **Blanks behind operators make no difference.** A list of comparators is read as the same range
    with them and without them, or refused as no range both times. The range is one group, in which the
    clauses of every comparator stand in its place, as they are when it is typed alone. -/
theorem npm_parseRange_spaced (ts : List TypedComparator) :
    ((∃ range, npm.parseRange (text ts) = .ok range ∧
        npm.parseRange (text (ts.map closed)) = .ok range) ∨
      ∃ refusal refusal', npm.parseRange (text ts) = .error refusal ∧
        npm.parseRange (text (ts.map closed)) = .error refusal' ∧
        refusal.code = "EINVALIDRANGE" ∧ refusal'.code = "EINVALIDRANGE") ∧
    (ts ≠ [] → ∀ range, npm.parseRange (text ts) = .ok range ↔
      ∃ groups, List.Forall₂ (fun t group => npm.parseRange (text [t.closed]) = .ok [group])
        ts groups ∧ range = [groups.flatten]) := by
  refine ⟨?_, fun hne range => ?_⟩
  · have hclosed := parse?_closed ts
    cases hread : ParsedRange.parse? (text ts) with
    | none =>
      obtain ⟨refusal, hrefused, hcode⟩ := npm_parseRange_of_none hread
      obtain ⟨refusal', hrefused', hcode'⟩ := npm_parseRange_of_none (hclosed.trans hread)
      exact Or.inr ⟨refusal, refusal', hrefused, hrefused', hcode, hcode'⟩
    | some range =>
      exact Or.inl ⟨range, npm_parseRange_eq_ok.2 hread,
        npm_parseRange_eq_ok.2 (hclosed.trans hread)⟩
  · simp only [npm_parseRange_eq_ok, parse?_singleton_iff]
    exact parse?_text_iff hne

/-- A bound, a tilde and a wildcard, with blanks of three kinds. -/
def spacedComparators : List TypedComparator :=
  [{ sign := ">=", blanks := ['\t', '\u3000'], version := "=v1.2".toList,
     sign_mem := by decide, isBlank_blanks := List.all_eq_true.1 rfl, blanks_eq_nil := by decide,
     isBlank_version := by simp [isBlank], isSome_version := rfl },
   { sign := "~>", blanks := ['\n'], version := "2.x".toList,
     sign_mem := by decide, isBlank_blanks := List.all_eq_true.1 rfl, blanks_eq_nil := by decide,
     isBlank_version := by simp [isBlank], isSome_version := rfl },
   { sign := "", blanks := [], version := "*".toList,
     sign_mem := by decide, isBlank_blanks := nofun, blanks_eq_nil := fun _ => rfl,
     isBlank_version := by simp [isBlank], isSome_version := rfl }]

/-- The group is the two bounds of the tilde behind the first bound, and then the wildcard. -/
theorem spaced_bounds_are_read :
    spacedComparators ≠ [] ∧ text spacedComparators = ">=\t\u3000=v1.2 ~>\n2.x *" ∧
      npm.parseRange (text spacedComparators) = .ok [[⟨">=", .version (.release 1 2 0)⟩,
        ⟨">=", .version (.release 2 0 0)⟩, ⟨"<", .version (.release 3 0 0)⟩, .any]] := by
  have hne : spacedComparators ≠ [] := List.cons_ne_nil _ _
  have hfirst : npm.parseRange ">==v1.2" = .ok [[⟨">=", .version (.release 1 2 0)⟩]] :=
    npm_parseRange_eq_ok.2 (by decide +kernel)
  have hsecond : npm.parseRange "~>2.x" =
      .ok [[⟨">=", .version (.release 2 0 0)⟩, ⟨"<", .version (.release 3 0 0)⟩]] :=
    npm_parseRange_eq_ok.2 (by decide +kernel)
  have hthird : npm.parseRange "*" = .ok [[.any]] := npm_parseRange_eq_ok.2 (by decide +kernel)
  refine ⟨hne, by decide, ((npm_parseRange_spaced spacedComparators).2 hne _).2 ?_⟩
  exact ⟨_, .cons hfirst (.cons hsecond (.cons hthird .nil)), rfl⟩

end Capabilities

end DepSpec
