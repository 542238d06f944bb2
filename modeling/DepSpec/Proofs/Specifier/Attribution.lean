import DepSpec.Proofs.Results
import DepSpec.Specifier.Classify

set_option autoImplicit false

/-! # Who is at fault

What makes each failure of classification, for capabilities of any kind: a resolver may answer with
kinds that nobody knows and with any of its fields missing, and a range parser with operators that
nobody knows.

The conditions are read off the answers. `Resolution.Leaves` is the range text that an answer leaves
to the parser, `Resolution.Lacks` what is wrong with an answer that cannot be used, and
`ParsedRange.FirstUnknown` the clause at which sending a range stops. What an answer leads to is said
once for each of the three (`Plan.ofTarget` before `Plan.ofResolution`), and the headline is
assembled from these lemmas. -/

namespace DepSpec

/-! ## The vocabulary -/

/-- The spellings of the operators that are sent. -/
def Operator.vocabulary : List String := ["", ">", ">=", "<", "<="]

theorem Operator.ofSymbol?_eq_none_iff {s : String} :
    Operator.ofSymbol? s = none ↔ s ∉ vocabulary := by
  constructor
  · intro h hmem
    simp only [vocabulary, List.mem_cons, List.not_mem_nil, or_false] at hmem
    rcases hmem with rfl | rfl | rfl | rfl | rfl <;> cases h
  · intro h
    cases hop : Operator.ofSymbol? s with
    | none => rfl
    | some op =>
      rw [← symbol_of_ofSymbol? hop] at h
      exact absurd (by cases op <;> decide) h

/-- Whether a clause can be sent. The mark for any version takes no operator but the empty one. -/
def Clause.InVocabulary (c : Clause) : Prop :=
  match c.bound with
  | .any => c.operator = ""
  | .version _ => c.operator ∈ Operator.vocabulary

theorem Clause.comparator_eq_error_iff {c : Clause} {op : String} :
    c.comparator = .error op ↔ ¬ c.InVocabulary ∧ c.operator = op := by
  obtain ⟨operator, bound⟩ := c
  cases bound with
  | any =>
    by_cases h : operator = "" <;> simp [comparator, InVocabulary, h]
  | version v =>
    unfold comparator InVocabulary
    cases hop : Operator.ofSymbol? operator with
    | none => simp [Operator.ofSymbol?_eq_none_iff.1 hop]
    | some known =>
      have hmem : operator ∈ Operator.vocabulary := by
        by_contra h
        rw [Operator.ofSymbol?_eq_none_iff.2 h] at hop
        cases hop
      simp [hmem]

theorem Clause.exists_comparator_iff {c : Clause} :
    (∃ sent, c.comparator = .ok sent) ↔ c.InVocabulary := by
  cases hc : c.comparator with
  | ok sent =>
    have hmem : c.InVocabulary := by
      by_contra h
      rw [comparator_eq_error_iff.2 ⟨h, rfl⟩] at hc
      cases hc
    simp [hmem]
  | error op => simp [(comparator_eq_error_iff.1 hc).1]

/-- The first clause in reading order that cannot be sent: along the groups, and in each along its
    clauses. -/
def ParsedRange.FirstUnknown (range : ParsedRange) (c : Clause) : Prop :=
  ∃ front back, range.flatten = front ++ c :: back ∧ (∀ d ∈ front, d.InVocabulary) ∧
    ¬ c.InVocabulary

theorem ParsedRange.constraint_eq_error_iff {range : ParsedRange} {op : String} :
    range.constraint = .error op ↔ ∃ c, range.FirstUnknown c ∧ c.operator = op := by
  rw [constraint, mapM_mapM_eq_error_iff, mapM_eq_error_iff]
  simp only [Clause.exists_comparator_iff, Clause.comparator_eq_error_iff]
  constructor
  · rintro ⟨front, c, back, hrange, hfront, hc, hop⟩
    exact ⟨c, ⟨front, back, hrange, hfront, hc⟩, hop⟩
  · rintro ⟨c, ⟨front, back, hrange, hfront, hc⟩, hop⟩
    exact ⟨front, c, back, hrange, hfront, hc, hop⟩

/-! ## Answers of a resolver -/

namespace Resolution

/-- The target that an alias names. -/
def AliasOf (r target : Resolution) : Prop := r.kind = "alias" ∧ r.target = some target

/-- The range text that an answer leaves to the parser. -/
inductive Leaves (r : Resolution) (text : String) : Prop
  | answer (hkind : r.kind = "version" ∨ r.kind = "range") (hfetch : r.fetch = some text)
  | target {target : Resolution} (halias : r.AliasOf target)
      (hkind : target.kind = "version" ∨ target.kind = "range") (hfetch : target.fetch = some text)

/-- The kinds of answers that can be used. -/
def kinds : List String :=
  ["git", "version", "range", "tag", "file", "directory", "remote", "alias"]

/-- The kinds of targets that can be used. -/
def targetKinds : List String := ["tag", "version", "range"]

/-- How an answer without a field is reported. -/
def missing (r : Resolution) (field : String) : String := r.kind ++ " (missing " ++ field ++ ")"

/-- A tag, a version or a range without the text to fetch. -/
def LacksFetch (r : Resolution) (what : String) : Prop :=
  r.kind ∈ targetKinds ∧ r.fetch = none ∧ what = r.missing "fetchSpec"

/-- What is wrong with an answer that cannot be used. -/
inductive Lacks (r : Resolution) (what : String) : Prop
  | kind (hkind : r.kind ∉ kinds) (hwhat : what = r.kind)
  | save (hkind : r.kind = "git") (hsave : r.save = none) (hwhat : what = r.missing "saveSpec")
  | fetch (h : r.LacksFetch what)
  | target (hkind : r.kind = "alias") (htarget : r.target = none)
      (hwhat : what = r.missing "subSpec")
  | targetFetch {target : Resolution} (halias : r.AliasOf target) (h : target.LacksFetch what)

end Resolution

/-! ## What an answer leads to -/

namespace Plan

open Resolution (targetKinds kinds missing LacksFetch)

theorem need_eq_ok_iff {r : Resolution} {field : String} {value : Option String} {text : String} :
    need r field value = .ok text ↔ value = some text := by
  cases value <;> simp [need]

theorem need_eq_error_iff {r : Resolution} {field : String} {value : Option String}
    {e : ClassifyError} :
    need r field value = .error e ↔
      value = none ∧ e = .unknownKind (r.missing field) := by
  cases value <;> simp [need, Resolution.missing, eq_comm]

variable {r target : Resolution} {text what : String} {e : ClassifyError}

/-- What the text of a tag, a version or a range leaves to do, for a package or by itself. -/
def ofFetch (kind : String) (name : Option String) (text : String) : Plan :=
  if kind = "tag" then .done (name.elim (.tag text) fun name => .alias name none (.tag text))
  else name.elim (.range text) fun name => .aliasRange name text

/-- A tag, a version or a range leaves to do what its text does, as an answer or as a target. -/
def ofFetched (r : Resolution) (name : Option String) : Except ClassifyError Plan :=
  (need r "fetchSpec" r.fetch).map (ofFetch r.kind name)

theorem rangeText?_ofFetch {kind : String} {name : Option String} (hkind : kind ∈ targetKinds) :
    (ofFetch kind name text).rangeText? =
      if kind = "version" ∨ kind = "range" then some text else none := by
  simp only [targetKinds, List.mem_cons, List.not_mem_nil, or_false] at hkind
  rcases hkind with rfl | rfl | rfl <;> cases name <;> rfl

/-- An answer that is read leaves a range text to the parser. -/
def LeadsTo (x : Except ClassifyError Plan) (text : String) : Prop :=
  ∃ plan, x = .ok plan ∧ plan.rangeText? = some text

theorem ofFetched_leadsTo_iff {name : Option String} (hkind : r.kind ∈ targetKinds) :
    LeadsTo (ofFetched r name) text ↔
      (r.kind = "version" ∨ r.kind = "range") ∧ r.fetch = some text := by
  simp only [LeadsTo, ofFetched, map_eq_ok_iff, need_eq_ok_iff]
  constructor
  · rintro ⟨plan, ⟨text', hfetch, rfl⟩, htext⟩
    rw [rangeText?_ofFetch hkind] at htext
    split at htext
    · next h => exact ⟨h, hfetch.trans htext⟩
    · cases htext
  · rintro ⟨h, hfetch⟩
    exact ⟨_, ⟨text, hfetch, rfl⟩, by rw [rangeText?_ofFetch hkind, if_pos h]⟩

theorem ofFetched_eq_error_iff {name : Option String} (hkind : r.kind ∈ targetKinds) :
    ofFetched r name = .error e ↔ ∃ what, r.LacksFetch what ∧ e = .unknownKind what := by
  rw [ofFetched, map_eq_error_iff, need_eq_error_iff]
  constructor
  · rintro ⟨hfetch, rfl⟩
    exact ⟨_, ⟨hkind, hfetch, rfl⟩, rfl⟩
  · rintro ⟨what, ⟨-, hfetch, rfl⟩, rfl⟩
    exact ⟨hfetch, rfl⟩

theorem mem_targetKinds {kind : String} (h : kind = "version" ∨ kind = "range") :
    kind ∈ targetKinds := by
  rcases h with rfl | rfl <;> decide

/-! ### Targets -/

theorem ofTarget_of_mem (h : target.kind ∈ targetKinds) :
    ofTarget target = ofFetched target target.name := by
  have hkind := h
  simp only [targetKinds, List.mem_cons, List.not_mem_nil, or_false] at hkind
  unfold ofTarget ofFetched ofFetch
  rcases hkind with hkind | hkind | hkind <;> rw [hkind] <;> cases target.fetch <;>
    cases target.name <;> rfl

theorem ofTarget_of_not_mem (h : target.kind ∉ targetKinds) :
    ofTarget target = .error (.unknownAliasKind target.kind) := by
  unfold ofTarget
  split
  case h_4 => rfl
  all_goals exact absurd (by simp only [*]; decide) h

theorem ofTarget_leadsTo_iff :
    LeadsTo (ofTarget target) text ↔
      (target.kind = "version" ∨ target.kind = "range") ∧ target.fetch = some text := by
  by_cases hkind : target.kind ∈ targetKinds
  · rw [ofTarget_of_mem hkind, ofFetched_leadsTo_iff hkind]
  · rw [ofTarget_of_not_mem hkind]
    constructor
    · rintro ⟨plan, hplan, -⟩
      cases hplan
    · rintro ⟨hrange, -⟩
      exact absurd (mem_targetKinds hrange) hkind

theorem ofTarget_eq_error_iff :
    ofTarget target = .error e ↔
      (∃ what, target.LacksFetch what ∧ e = .unknownKind what) ∨
        target.kind ∉ targetKinds ∧ e = .unknownAliasKind target.kind := by
  by_cases hkind : target.kind ∈ targetKinds
  · rw [ofTarget_of_mem hkind, ofFetched_eq_error_iff hkind]
    simp [hkind]
  · rw [ofTarget_of_not_mem hkind]
    simp [hkind, LacksFetch, eq_comm]

/-! ### Answers -/

theorem ofResolution_of_mem (h : r.kind ∈ targetKinds) : ofResolution r = ofFetched r none := by
  have hkind := h
  simp only [targetKinds, List.mem_cons, List.not_mem_nil, or_false] at hkind
  unfold ofResolution ofFetched ofFetch
  rcases hkind with hkind | hkind | hkind <;> rw [hkind] <;> cases r.fetch <;> rfl

theorem ofResolution_alias (hkind : r.kind = "alias") (htarget : r.target = some target) :
    ofResolution r = ofTarget target := by
  rw [ofResolution, hkind, htarget]
  rfl

theorem ofResolution_of_lacks (h : r.Lacks what) : ofResolution r = .error (.unknownKind what) := by
  cases h with
  | kind hkind hwhat =>
    unfold ofResolution
    split
    case h_9 => rw [hwhat]
    all_goals exact absurd (by simp only [*]; decide) hkind
  | save hkind hsave hwhat =>
    rw [ofResolution, hkind, hsave, hwhat]
    rfl
  | fetch h =>
    rw [ofResolution_of_mem h.1, ofFetched_eq_error_iff h.1]
    exact ⟨what, h, rfl⟩
  | target hkind htarget hwhat =>
    rw [ofResolution, hkind, htarget, hwhat, missing, hkind]
    rfl
  | targetFetch halias h =>
    rw [ofResolution_alias halias.1 halias.2, ofTarget_eq_error_iff]
    exact Or.inl ⟨what, h, rfl⟩

/-- What an answer leads to: what its text or its target does, a failure, or a specifier. -/
theorem ofResolution_cases (r : Resolution) :
    r.kind ∈ targetKinds ∨ (∃ target, r.AliasOf target) ∨ (∃ what, r.Lacks what) ∨
      ∃ spec, ofResolution r = .ok (.done spec) := by
  by_cases hmem : r.kind ∈ targetKinds
  · exact Or.inl hmem
  right
  by_cases hkinds : r.kind ∈ kinds
  · simp only [kinds, targetKinds, List.mem_cons, List.not_mem_nil, or_false, not_or] at hkinds hmem
    rcases hkinds with hkind | hkind | hkind | hkind | hkind | hkind | hkind | hkind
    · cases hsave : r.save with
      | none => exact Or.inr (Or.inl ⟨_, .save hkind hsave rfl⟩)
      | some url =>
        rw [ofResolution, hkind, hsave]
        exact Or.inr (Or.inr ⟨_, rfl⟩)
    · exact absurd hkind hmem.2.1
    · exact absurd hkind hmem.2.2
    · exact absurd hkind hmem.1
    all_goals rw [ofResolution, hkind]
    · exact Or.inr (Or.inr ⟨_, rfl⟩)
    · exact Or.inr (Or.inr ⟨_, rfl⟩)
    · exact Or.inr (Or.inr ⟨_, rfl⟩)
    · cases htarget : r.target with
      | none => exact Or.inr (Or.inl ⟨_, .target hkind htarget rfl⟩)
      | some target => exact Or.inl ⟨target, hkind, htarget⟩
  · exact Or.inr (Or.inl ⟨_, .kind hkinds rfl⟩)

theorem ofResolution_leadsTo_iff : LeadsTo (ofResolution r) text ↔ r.Leaves text := by
  constructor
  · intro h
    rcases ofResolution_cases r with hmem | ⟨target, halias⟩ | ⟨what, hlacks⟩ | ⟨spec, hspec⟩
    · rw [ofResolution_of_mem hmem, ofFetched_leadsTo_iff hmem] at h
      exact .answer h.1 h.2
    · rw [ofResolution_alias halias.1 halias.2, ofTarget_leadsTo_iff] at h
      exact .target halias h.1 h.2
    · obtain ⟨plan, hplan, -⟩ := h
      rw [ofResolution_of_lacks hlacks] at hplan
      cases hplan
    · obtain ⟨plan, hplan, htext⟩ := h
      rw [hspec] at hplan
      cases hplan
      cases htext
  · intro h
    cases h with
    | answer hkind hfetch =>
      have hmem := mem_targetKinds hkind
      rw [ofResolution_of_mem hmem, ofFetched_leadsTo_iff hmem]
      exact ⟨hkind, hfetch⟩
    | target halias hkind hfetch =>
      rw [ofResolution_alias halias.1 halias.2, ofTarget_leadsTo_iff]
      exact ⟨hkind, hfetch⟩

theorem ofResolution_eq_error_iff :
    ofResolution r = .error e ↔
      (∃ what, r.Lacks what ∧ e = .unknownKind what) ∨
        ∃ target, r.AliasOf target ∧ target.kind ∉ targetKinds ∧
          e = .unknownAliasKind target.kind := by
  constructor
  · intro h
    rcases ofResolution_cases r with hmem | ⟨target, halias⟩ | ⟨what, hlacks⟩ | ⟨spec, hspec⟩
    · rw [ofResolution_of_mem hmem, ofFetched_eq_error_iff hmem] at h
      obtain ⟨what, hlacks, he⟩ := h
      exact Or.inl ⟨what, .fetch hlacks, he⟩
    · rw [ofResolution_alias halias.1 halias.2, ofTarget_eq_error_iff] at h
      rcases h with ⟨what, hlacks, he⟩ | hkind
      · exact Or.inl ⟨what, .targetFetch halias hlacks, he⟩
      · exact Or.inr ⟨target, halias, hkind⟩
    · rw [ofResolution_of_lacks hlacks] at h
      exact Or.inl ⟨what, hlacks, (Except.error.inj h).symm⟩
    · rw [hspec] at h
      cases h
  · rintro (⟨what, hlacks, rfl⟩ | ⟨target, halias, hkind, rfl⟩)
    · exact ofResolution_of_lacks hlacks
    · rw [ofResolution_alias halias.1 halias.2, ofTarget_of_not_mem hkind]

end Plan

/-! ## Classification -/

namespace Capabilities

variable {caps : Capabilities} {raw text : String} {e : ClassifyError}

/-- A range text that is handed to the parser: the resolver's answer leaves it. -/
def HandsOver (caps : Capabilities) (raw text : String) : Prop :=
  ∃ r, caps.resolve placeholderName (trimmed raw) = .ok r ∧ r.Leaves text

theorem plan_of_resolve {r : Resolution}
    (h : caps.resolve placeholderName (trimmed raw) = .ok r) :
    caps.plan raw = Plan.ofResolution r := by
  rw [plan, h]
  rfl

theorem plan_leadsTo_iff : Plan.LeadsTo (caps.plan raw) text ↔ caps.HandsOver raw text := by
  cases hr : caps.resolve placeholderName (trimmed raw) with
  | ok r =>
    rw [plan_of_resolve hr, Plan.ofResolution_leadsTo_iff]
    simp [HandsOver, hr]
  | error refusal =>
    simp [Plan.LeadsTo, HandsOver, plan, hr, Except.mapError, Bind.bind, Except.bind]

theorem plan_eq_error_iff :
    caps.plan raw = .error e ↔
      (∃ refusal, caps.resolve placeholderName (trimmed raw) = .error refusal ∧
        .invalid refusal = e) ∨
      ∃ r, caps.resolve placeholderName (trimmed raw) = .ok r ∧ Plan.ofResolution r = .error e := by
  rw [plan, bind_eq_error_iff, mapError_eq_error_iff]
  simp only [mapError_eq_ok_iff]

theorem constraint_eq_error_iff :
    caps.constraint text = .error e ↔
      (∃ refusal, caps.parseRange text = .error refusal ∧ .invalid refusal = e) ∨
      ∃ range c, caps.parseRange text = .ok range ∧ range.FirstUnknown c ∧
        .unrecognizedOperator c.operator = e := by
  rw [constraint, bind_eq_error_iff, mapError_eq_error_iff]
  simp only [mapError_eq_error_iff, mapError_eq_ok_iff, ParsedRange.constraint_eq_error_iff]
  refine or_congr_right ⟨?_, ?_⟩
  · rintro ⟨range, hrange, op, ⟨c, hc, rfl⟩, he⟩
    exact ⟨range, c, hrange, hc, he⟩
  · rintro ⟨range, c, hrange, hc, he⟩
    exact ⟨range, hrange, c.operator, ⟨c, hc, rfl⟩, he⟩

/-- Classification fails as the plan does, or as the range text does that the plan leaves. -/
theorem classify_eq_error_iff :
    caps.classify raw = .error e ↔
      caps.plan raw = .error e ∨
        ∃ text, caps.HandsOver raw text ∧ caps.constraint text = .error e := by
  rw [classify, bind_eq_error_iff]
  simp only [← plan_leadsTo_iff, Plan.LeadsTo]
  refine or_congr_right ⟨?_, ?_⟩
  · rintro ⟨plan, hplan, h⟩
    cases plan with
    | done spec => cases h
    | range text => exact ⟨text, ⟨_, hplan, rfl⟩, map_eq_error_iff.1 h⟩
    | aliasRange name text => exact ⟨text, ⟨_, hplan, rfl⟩, map_eq_error_iff.1 h⟩
  · rintro ⟨text, ⟨plan, hplan, htext⟩, h⟩
    refine ⟨plan, hplan, ?_⟩
    cases plan with
    | done spec => cases htext
    | range text' =>
      cases htext
      exact map_eq_error_iff.2 h
    | aliasRange name text' =>
      cases htext
      exact map_eq_error_iff.2 h

/-- The range texts that are parsed are those that are handed over. -/
theorem parseRange_mem_inquiries_iff :
    .parseRange text ∈ caps.inquiries raw ↔ caps.HandsOver raw text := by
  rw [← plan_leadsTo_iff, inquiries, Plan.LeadsTo]
  cases caps.plan raw with
  | error e => simp
  | ok plan => simp

/-! ### One lemma for each failure -/

theorem classify_eq_invalid_iff {refusal : Refusal} :
    caps.classify raw = .error (.invalid refusal) ↔
      caps.resolve placeholderName (trimmed raw) = .error refusal ∨
        ∃ text, caps.HandsOver raw text ∧ caps.parseRange text = .error refusal := by
  rw [classify_eq_error_iff, plan_eq_error_iff]
  simp only [constraint_eq_error_iff, Plan.ofResolution_eq_error_iff, ClassifyError.invalid.injEq,
    reduceCtorEq, and_false, exists_false, or_false, exists_eq_right]

theorem classify_eq_unrecognizedOperator_iff {op : String} :
    caps.classify raw = .error (.unrecognizedOperator op) ↔
      ∃ text, caps.HandsOver raw text ∧
        ∃ range c, caps.parseRange text = .ok range ∧ range.FirstUnknown c ∧ c.operator = op := by
  rw [classify_eq_error_iff, plan_eq_error_iff]
  simp only [constraint_eq_error_iff, Plan.ofResolution_eq_error_iff,
    ClassifyError.unrecognizedOperator.injEq, reduceCtorEq, and_false, exists_false, false_or,
    or_false]

theorem classify_eq_unknownKind_iff {what : String} :
    caps.classify raw = .error (.unknownKind what) ↔
      ∃ r, caps.resolve placeholderName (trimmed raw) = .ok r ∧ r.Lacks what := by
  rw [classify_eq_error_iff, plan_eq_error_iff]
  simp only [constraint_eq_error_iff, Plan.ofResolution_eq_error_iff,
    ClassifyError.unknownKind.injEq, reduceCtorEq, and_false, exists_false, false_or, or_false,
    exists_eq_right']

theorem classify_eq_unknownAliasKind_iff {kind : String} :
    caps.classify raw = .error (.unknownAliasKind kind) ↔
      ∃ r target, caps.resolve placeholderName (trimmed raw) = .ok r ∧ r.AliasOf target ∧
        target.kind = kind ∧ kind ∉ Resolution.targetKinds := by
  rw [classify_eq_error_iff, plan_eq_error_iff]
  simp only [constraint_eq_error_iff, Plan.ofResolution_eq_error_iff,
    ClassifyError.unknownAliasKind.injEq, reduceCtorEq, and_false, exists_false, false_or, or_false]
  constructor
  · rintro ⟨r, hr, target, halias, hkind, rfl⟩
    exact ⟨r, target, hr, halias, rfl, hkind⟩
  · rintro ⟨r, target, hr, halias, rfl, hkind⟩
    exact ⟨r, hr, target, halias, hkind, rfl⟩

/-- An alias for a target of an unknown kind leaves nothing to do. -/
theorem plan_of_unknownAliasKind {kind : String}
    (h : caps.classify raw = .error (.unknownAliasKind kind)) :
    caps.plan raw = .error (.unknownAliasKind kind) := by
  obtain ⟨r, target, hr, halias, rfl, hkind⟩ := classify_eq_unknownAliasKind_iff.1 h
  rw [plan_of_resolve hr, Plan.ofResolution_alias halias.1 halias.2,
    Plan.ofTarget_of_not_mem hkind]

/-- **Every failure is laid at the right door**, whatever the capabilities answer. A refusal comes
    from the resolver, or from the parser about a range text that the resolver's answer leaves. An
    operator is reported for a range text that was parsed, and it is the first in reading order that
    cannot be sent. All other failures are about the answer itself: it lacks something, or it is an
    alias for a target that is no tag, version or range. Then no range text is parsed, and with
    another parser the failure is the same. -/
theorem failures_are_attributed (caps : Capabilities) (raw : String) :
    (∀ code message, caps.classify raw = .error (.invalid ⟨code, message⟩) ↔
      caps.resolve placeholderName (trimmed raw) = .error ⟨code, message⟩ ∨
        ∃ text, caps.HandsOver raw text ∧ caps.parseRange text = .error ⟨code, message⟩) ∧
    (∀ op, caps.classify raw = .error (.unrecognizedOperator op) ↔
      ∃ text, caps.HandsOver raw text ∧
        ∃ range c, caps.parseRange text = .ok range ∧ range.FirstUnknown c ∧ c.operator = op) ∧
    (∀ what, caps.classify raw = .error (.unknownKind what) ↔
      ∃ r, caps.resolve placeholderName (trimmed raw) = .ok r ∧ r.Lacks what) ∧
    (∀ kind, caps.classify raw = .error (.unknownAliasKind kind) ↔
      ∃ r target, caps.resolve placeholderName (trimmed raw) = .ok r ∧ r.AliasOf target ∧
        target.kind = kind ∧ kind ∉ ["tag", "version", "range"]) ∧
    (∀ e, caps.classify raw = .error e → e.isInvalid = false → e.isFatal = false →
      (∃ what, e = .unknownKind what) ∨ ∃ kind, e = .unknownAliasKind kind) ∧
    (∀ text, .parseRange text ∈ caps.inquiries raw ↔ caps.HandsOver raw text) ∧
    ∀ kind, caps.classify raw = .error (.unknownAliasKind kind) →
      caps.inquiries raw = [.resolve placeholderName (trimmed raw)] ∧
        ∀ parser, { caps with parseRange := parser }.classify raw =
          .error (.unknownAliasKind kind) := by
  refine ⟨fun code message => classify_eq_invalid_iff,
    fun op => classify_eq_unrecognizedOperator_iff, fun what => classify_eq_unknownKind_iff,
    fun kind => classify_eq_unknownAliasKind_iff, ?_, fun text => parseRange_mem_inquiries_iff, ?_⟩
  · intro e _ hinvalid hfatal
    cases e with
    | invalid refusal => cases hinvalid
    | unrecognizedOperator op => cases hfatal
    | unknownKind what => exact Or.inl ⟨what, rfl⟩
    | unknownAliasKind kind => exact Or.inr ⟨kind, rfl⟩
  · intro kind h
    constructor
    · rw [inquiries, plan_of_unknownAliasKind h]
    · intro parser
      -- the condition speaks of the resolver alone
      rw [classify_eq_unknownAliasKind_iff] at h ⊢
      exact h

/-- A resolver that takes every text for an alias of this target, and a parser that reads every text
    as this range. -/
def aliasing (target : Resolution) (range : ParsedRange) : Capabilities where
  resolve _ spec := .ok { kind := "alias", raw := spec, target := some target }
  parseRange _ := .ok range

/-- Behind an alias, the second clause of the first group is the first unknown one; an alias for an
    alias gets no further than its kind. -/
theorem unknown_operator_behind_alias :
    (aliasing { kind := "range", raw := "~1 || !2", name := some "bar", fetch := some "~1 || !2" }
        [[.any, ⟨"~", .any⟩], [⟨"!", .any⟩]]).classify " x " =
      .error (.unrecognizedOperator "~") ∧
    (aliasing { kind := "alias", raw := "npm:bar" } [[⟨"!", .any⟩]]).classify "x" =
      .error (.unknownAliasKind "alias") ∧
    (aliasing { kind := "alias", raw := "npm:bar" } [[⟨"!", .any⟩]]).inquiries "x" =
      [.resolve "foo" "x"] := by
  have hunknown : ParsedRange.FirstUnknown [[.any, ⟨"~", .any⟩], [⟨"!", .any⟩]] ⟨"~", .any⟩ :=
    ⟨[.any], [⟨"!", .any⟩], rfl, fun d hd => List.mem_singleton.1 hd ▸ rfl,
      (by decide : ¬ "~" = "")⟩
  have halias := ((failures_are_attributed
    (aliasing { kind := "alias", raw := "npm:bar" } [[⟨"!", .any⟩]]) "x").2.2.2.1 "alias").2
    ⟨_, _, rfl, ⟨rfl, rfl⟩, rfl, by decide⟩
  refine ⟨((failures_are_attributed _ _).2.1 "~").2 ⟨"~1 || !2",
    ⟨_, rfl, .target ⟨rfl, rfl⟩ (Or.inr rfl) rfl⟩, _, _, rfl, hunknown, rfl⟩, halias, ?_⟩
  rw [((failures_are_attributed _ _).2.2.2.2.2.2 "alias" halias).1]
  decide +kernel

end Capabilities

end DepSpec
