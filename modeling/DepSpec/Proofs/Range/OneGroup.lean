import DepSpec.Proofs.Range.WrittenForm
import DepSpec.Proofs.Specifier.WellFormed
import DepSpec.Proofs.Version.PartialForm
import DepSpec.Range.Meaning

set_option autoImplicit false

/-! # Ranges of one group

A range text without bars is one group (`ParsedRange.parse?_of_group`). It is a single comparator
where it holds no blanks: a sign, and the text of a partial version that the sign is read off of
(`groupClauses?_sign`). Or it is a hyphen range, where a hyphen between blanks stands between two such
texts (`readHyphen?_spells`). -/

namespace DepSpec

open Text

/-! ## Groups -/

theorem IsGroupText.trim_eq {cs : List Char} (h : IsGroupText cs) : trim cs = cs := by
  have htrim := h.trim_append [] [] nofun nofun
  rwa [List.nil_append, List.append_nil] at htrim

theorem absorb_singleton (group : List Clause) : absorb [group] = [group] := by
  unfold absorb
  split
  · next hmem => rw [List.mem_singleton.1 hmem]
  · rfl

namespace ParsedRange

theorem parse?_of_group {text : String} {group : List Clause} (htext : IsGroupText text.toList)
    (hgroup : groupClauses? text.toList = some group) (hne : group ≠ []) :
    parse? text = some [group] := by
  rw [parse?, splitBars_of_not_mem htext.not_mem_bar]
  simp [htext.trim_eq, hgroup, hne, absorb_singleton]

theorem parse?_eq_none {text : String} (htext : IsGroupText text.toList)
    (hgroup : groupClauses? text.toList = none) : parse? text = none := by
  rw [parse?, splitBars_of_not_mem htext.not_mem_bar]
  simp [htext.trim_eq, hgroup]

/-- It is read if its clauses are. -/
theorem parse?_eq_some_iff_of_group {text : String} (htext : IsGroupText text.toList)
    (hne : ∀ group, groupClauses? text.toList = some group → group ≠ []) {range : ParsedRange} :
    parse? text = some range ↔ ∃ group, groupClauses? text.toList = some group ∧ range = [group] := by
  cases hgroup : groupClauses? text.toList with
  | none => simp [parse?_eq_none htext hgroup]
  | some group => simp [parse?_of_group htext hgroup (hne group hgroup), eq_comm]

end ParsedRange

namespace Capabilities

theorem npm_parseRange_of_group {text : String} {group : List Clause}
    (htext : IsGroupText text.toList) (hgroup : groupClauses? text.toList = some group)
    (hne : group ≠ []) : npm.parseRange text = .ok [group] :=
  npm_parseRange_eq_ok.2 (ParsedRange.parse?_of_group htext hgroup hne)

theorem npm_parseRange_of_none {text : String} (h : ParsedRange.parse? text = none) :
    ∃ refusal, npm.parseRange text = .error refusal ∧ refusal.code = "EINVALIDRANGE" := by
  refine ⟨(SpecError.range text).refusal, ?_, rfl⟩
  show (readRange text).mapError SpecError.refusal = _
  rw [readRange, h]
  rfl

theorem npm_parseRange_refused {text : String} (htext : IsGroupText text.toList)
    (hgroup : groupClauses? text.toList = none) :
    ∃ refusal, npm.parseRange text = .error refusal ∧ refusal.code = "EINVALIDRANGE" :=
  npm_parseRange_of_none (ParsedRange.parse?_eq_none htext hgroup)

end Capabilities

/-! ## Clauses of a comparator -/

section NotEmpty

variable {group : List Clause}

theorem ne_nil_of_map {bounds : Version → List Clause} (hbounds : ∀ v, bounds v ≠ [])
    {next : Option Version} (h : next.map bounds = some group) : group ≠ [] := by
  obtain ⟨v, -, rfl⟩ := Option.map_eq_some_iff.1 h
  exact hbounds v

/-- A version that is marked as compatible stands for two bounds, or for any version. -/
theorem Partial.compatible_ne_nil {p : Partial} (h : p.caret? = some group ∨ p.tilde? = some group) :
    group ≠ [] := by
  cases p with
  | any =>
    rcases h with h | h <;>
    · cases h
      exact List.cons_ne_nil _ _
  | major | minor | full =>
    rcases h with h | h <;> exact ne_nil_of_map (fun _ => List.cons_ne_nil _ _) h

theorem Partial.comparePart?_ne_nil {op : Operator} {a : UInt64} {b : Option UInt64}
    (h : comparePart? op a b = some group) : group ≠ [] := by
  cases op with
  | eq | gt | lte => exact ne_nil_of_map (fun _ => List.cons_ne_nil _ _) h
  | gte | lt =>
    cases h
    exact List.cons_ne_nil _ _

theorem Partial.compare?_ne_nil {op : Operator} {p : Partial} (h : p.compare? op = some group) :
    group ≠ [] := by
  cases p with
  | any =>
    cases op <;>
    · cases h
      exact List.cons_ne_nil _ _
  | major | minor => exact comparePart?_ne_nil h
  | full =>
    cases h
    exact List.cons_ne_nil _ _

/-- **A comparator stands for at least one clause.** -/
theorem Term.clauses?_ne_nil {term : Term} (h : term.clauses? = some group) : group ≠ [] := by
  cases term with
  | caret p =>
    obtain ⟨value, -, hvalue⟩ := Option.bind_eq_some_iff.1 h
    exact Partial.compatible_ne_nil (Or.inl hvalue)
  | tilde p =>
    obtain ⟨value, -, hvalue⟩ := Option.bind_eq_some_iff.1 h
    exact Partial.compatible_ne_nil (Or.inr hvalue)
  | compare op p =>
    obtain ⟨value, -, hvalue⟩ := Option.bind_eq_some_iff.1 h
    exact Partial.compare?_ne_nil hvalue

end NotEmpty

/-! ## Comparators -/

/-- A comparator is a group by itself. -/
theorem groupClauses?_of_term {w : List Char} {term : Term} (hne : w ≠ [])
    (h : ∀ c ∈ w, IsTermChar c) (hread : Term.read? w = some term) :
    groupClauses? w = term.clauses? := by
  have hblank : ∀ c ∈ w, isBlank c = false := fun c hc => (h c hc).isBlank_eq_false
  have hhyphen : readHyphen? w = none := by
    rw [← List.takeWhile_append_dropWhile (p := PartialText.isLead) (l := w)]
    exact readHyphen?_eq_none (fun c hc => List.all_eq_true.1 List.all_takeWhile c hc)
      (List.dropWhile_idempotent _ _)
      fun c hc => hblank c ((List.dropWhile_suffix PartialText.isLead).subset hc)
  have hwords : words (closeUp false w) = [w] := by
    rw [closeUp_of_not_blank hblank, words, splitWhere_of_not_mem hblank]
    simp [hne]
  rw [groupClauses?, hhyphen, termClauses?, hwords]
  simp only [List.filterMap_cons, hread, List.filterMap_nil, List.mapM_cons, List.mapM_nil]
  cases term.clauses? <;> simp

/-! ## The text of a partial version -/

theorem isLead_eq_false_of_isPartChar {c : Char} (h : isPartChar c = true) :
    PartialText.isLead c = false := by
  simp only [isPartChar, Bool.or_eq_true, beq_iff_eq] at h
  rcases h with ((hdigit | rfl) | rfl) | rfl
  · exact isLead_eq_false_of_isDecimalDigit hdigit
  all_goals decide

namespace Partial

variable {cs : List Char} {p : Partial}

/-- The reader drops the lead characters of a text and reads the parts behind them. -/
theorem Spells.exists_parts (h : p.Spells cs) : ∃ lead parts t, cs = lead ++ parts ∧
    (∀ c ∈ lead, c = 'v' ∨ c = '=') ∧ parts.dropWhile PartialText.isLead = parts ∧
    PartialText.ofParts? parts = some t ∧ t.value? = some p := by
  obtain ⟨lead, parts, rfl, hlead, hparts⟩ := h
  obtain ⟨t, ht, hvalue⟩ := hparts.ofParts?
  obtain ⟨c, rest, rfl, hc⟩ := PartialText.exists_head_of_ofParts? ht
  refine ⟨lead, _, t, rfl, hlead, ?_, ht, hvalue⟩
  rw [List.dropWhile_cons, isLead_eq_false_of_isPartChar hc]
  rfl

theorem isLead_of_eq {c : Char} (h : c = 'v' ∨ c = '=') : PartialText.isLead c = true := by
  rcases h with rfl | rfl <;> rfl

theorem Spells.ofChars? (h : p.Spells cs) :
    ∃ t, PartialText.ofChars? cs = some t ∧ t.value? = some p := by
  obtain ⟨lead, parts, t, rfl, hlead, hdrop, ht, hvalue⟩ := h.exists_parts
  refine ⟨t, ?_, hvalue⟩
  rw [ofChars?_append fun c hc => isLead_of_eq (hlead c hc), PartialText.ofChars?, hdrop, ht]

theorem Spells.chars (h : p.Spells cs) : ∀ c ∈ cs, c = '=' ∨ isVersionChar c = true := by
  obtain ⟨lead, parts, t, rfl, hlead, -, ht, -⟩ := h.exists_parts
  intro c hc
  rcases List.mem_append.1 hc with hc | hc
  · rcases hlead c hc with rfl | rfl
    · exact Or.inr (by decide)
    · exact Or.inl rfl
  · exact Or.inr (PartialText.isVersionChar_of_ofParts? ht c hc)

/-- It begins with no sign but an equality sign. -/
theorem Spells.head (h : p.Spells cs) : ∀ c ∈ cs.head?, c = '=' ∨ isOperatorChar c = false := by
  intro c hc
  exact (h.chars c (List.mem_of_mem_head? hc)).imp_right isOperatorChar_of_isVersionChar

theorem Spells.isTermChar (h : p.Spells cs) : ∀ c ∈ cs, IsTermChar c := by
  intro c hc
  rcases h.chars c hc with rfl | hversion
  · exact Or.inl (by decide)
  · exact Or.inr hversion

theorem Spells.ne_nil (h : p.Spells cs) : cs ≠ [] := by
  obtain ⟨lead, parts, t, rfl, -, -, ht, -⟩ := h.exists_parts
  simp [PartialText.ne_nil_of_ofParts? ht]

theorem Spells.isGroupText (h : p.Spells cs) : IsGroupText cs :=
  isGroupText_of_isTermChar h.ne_nil h.isTermChar

end Partial

/-! ## Signs -/

/-- A sign in front of a partial version is a group of one comparator. -/
theorem groupClauses?_sign {sign cs : List Char} {p : Partial} {term : Term}
    (hsign : ∀ c ∈ sign, isOperatorChar c = true) (hcs : p.Spells cs)
    (hread : Term.read? (sign ++ cs) = some term) :
    IsGroupText (sign ++ cs) ∧ groupClauses? (sign ++ cs) = term.clauses? := by
  have hne : sign ++ cs ≠ [] := by simp [hcs.ne_nil]
  have hchars : ∀ c ∈ sign ++ cs, IsTermChar c := by
    intro c hc
    rcases List.mem_append.1 hc with hc | hc
    · exact Or.inl (hsign c hc)
    · exact hcs.isTermChar c hc
  exact ⟨isGroupText_of_isTermChar hne hchars, groupClauses?_of_term hne hchars hread⟩

/-- The term that a caret or a tilde makes of a partial version. -/
def Compatibility.term : Compatibility → PartialText → Term
  | .caret => .caret
  | .tilde => .tilde

theorem Term.read?_compatible {kind : Compatibility} {sign : String} (hsign : sign ∈ kind.symbols)
    {cs : List Char} (hcs : '>' ∉ cs) :
    read? (sign.toList ++ cs) = (PartialText.ofChars? cs).map kind.term := by
  cases kind with
  | caret =>
    obtain rfl := List.mem_singleton.1 hsign
    rfl
  | tilde =>
    rcases List.mem_pair.1 hsign with rfl | rfl
    · show read? ('~' :: cs) = _
      rw [read?]
      · rfl
      · rintro rest rfl
        exact hcs List.mem_cons_self
    · rfl

/-! ## Hyphen ranges -/

/-- Two partial versions with a hyphen between blanks between them. -/
theorem readHyphen?_spells {cs ds : List Char} {p q : Partial} (hp : p.Spells cs) (hq : q.Spells ds) :
    ∃ lower upper, readHyphen? (cs ++ ' ' :: '-' :: ' ' :: ds) = some (lower, upper) ∧
      lower.value? = some p ∧ upper.value? = some q := by
  obtain ⟨lead, parts, lower, rfl, hlead, -, hlower, hp'⟩ := hp.exists_parts
  obtain ⟨upper, hupper, hq'⟩ := hq.ofChars?
  refine ⟨lower, upper, ?_, hp', hq'⟩
  have hword : ∀ c ∈ parts, (!isBlank c) = true := by
    intro c hc
    rw [isBlank_of_isVersionChar (PartialText.isVersionChar_of_ofParts? hlower c hc)]
    rfl
  obtain ⟨c, rest, rfl, hc⟩ := PartialText.exists_head_of_ofParts? hlower
  have hfront : (lead ++ (c :: rest) ++ ' ' :: '-' :: ' ' :: ds).dropWhile PartialText.isLead =
      (c :: rest) ++ ' ' :: '-' :: ' ' :: ds := by
    rw [List.append_assoc, List.dropWhile_append_of_pos fun d hd => Partial.isLead_of_eq (hlead d hd),
      List.cons_append, List.dropWhile_cons, isLead_eq_false_of_isPartChar hc]
    rfl
  have htake : ((c :: rest) ++ ' ' :: '-' :: ' ' :: ds).takeWhile (fun d => !isBlank d) = c :: rest := by
    rw [List.takeWhile_append_of_pos hword]
    simp [show isBlank ' ' = true from rfl]
  have hbehind : (((c :: rest) ++ ' ' :: '-' :: ' ' :: ds).dropWhile fun d => !isBlank d).dropWhile
      isBlank = '-' :: ' ' :: ds := by
    rw [List.dropWhile_append_of_pos hword]
    rfl
  rw [readHyphen?, hfront, htake, hbehind, hlower]
  show (PartialText.ofChars? ds).map _ = _
  rw [hupper]
  rfl

end DepSpec
