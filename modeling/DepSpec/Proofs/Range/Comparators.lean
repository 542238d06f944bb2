import DepSpec.Proofs.Range.Bounds
import DepSpec.Proofs.Range.OneGroup

set_option autoImplicit false

/-! # Operators on partial versions

An operator compares a release with all those that a partial version stands for. The first of these
has zeros for what is not given, and they end before the next release behind the given numbers;
either bound says what an operator says of all of them (`Partial.meetsCovered_gte_iff`,
`Partial.meetsCovered_lt_iff`, `Partial.meetsCovered_gt_iff`). The ends of a hyphen range are turned
into bounds on a way of their own, which agrees with that of the operators
(`Partial.lowerEnd_admits_iff`, `Partial.exists_upperEnd?`). -/

namespace DepSpec

open Text

namespace Partial

variable {p : Partial} {op : Operator} {a b c : UInt64}

/-! ## The releases that a partial version stands for -/

theorem covers_release_iff : p.Covers (.release a b c) ↔ p.given <+: [a, b, c] := by
  constructor
  · rintro ⟨x, y, z, heq, h⟩
    cases heq
    exact h
  · exact fun h => ⟨a, b, c, rfl, h⟩

/-- The first of them has zeros for what is not given. -/
theorem covers_start (hp : p.given.length < 3) : p.Covers p.start := by
  cases p with
  | any => exact covers_release_iff.2 (given_isPrefix .any)
  | major a => exact covers_release_iff.2 (given_isPrefix (.major a))
  | minor a b => exact covers_release_iff.2 (given_isPrefix (.minor a b))
  | full v => exact absurd hp (Nat.lt_irrefl 3)

theorem start_le (hp : p.given.length < 3) (h : p.given <+: [a, b, c]) :
    p.start.numbers ≤ [a, b, c] := by
  have hzero : (0 : UInt64).toNat = 0 := rfl
  cases p with
  | any => exact Version.zero_le a b c
  | full v => exact absurd hp (Nat.lt_irrefl 3)
  | major | minor =>
    simp only [given, List.cons_prefix_cons, ← UInt64.toNat_inj] at h
    simp only [start, Version.numbers, Version.release, ← List.not_lt, Version.numbers_lt_iff]
    omega

/-! ## What operators say of them -/

theorem meetsCovered_gte_iff (hp : p.given.length < 3) :
    p.MeetsCovered (.release a b c) .gte ↔ p.start.numbers ≤ [a, b, c] := by
  constructor
  · rintro ⟨least, ⟨x, y, z, rfl, hleast⟩, -, hle⟩
    exact List.le_trans (start_le hp hleast) (Version.release_not_lt_iff.1 hle)
  · intro hle
    refine ⟨p.start, covers_start hp, ?_, Version.release_not_lt_iff.2 hle⟩
    rintro w ⟨x, y, z, rfl, hw⟩
    exact Version.release_not_lt_iff.2 (start_le hp hw)

theorem meetsCovered_lt_iff (hp : p.given.length < 3) :
    p.MeetsCovered (.release a b c) .lt ↔ [a, b, c] < p.start.numbers := by
  constructor
  · exact fun h => Version.release_lt_iff.1 (h p.start (covers_start hp))
  · rintro hlt w ⟨x, y, z, rfl, hw⟩
    have hle := start_le hp hw
    refine Version.release_lt_iff.2 (List.not_le.1 fun hge => ?_)
    exact List.not_le.2 hlt (List.le_trans hle hge)

theorem meetsCovered_gt_iff (hp : p.given.length < 3) {upper : Version}
    (hnext : Version.next? p.given = some upper) :
    p.MeetsCovered (.release a b c) .gt ↔ upper.numbers ≤ [a, b, c] := by
  constructor
  · intro h
    have hle : p.start.numbers ≤ [a, b, c] := by
      rw [← Version.release_not_lt_iff, h p.start (covers_start hp)]
      nofun
    refine List.not_lt.1 fun hlt => ?_
    -- A release below the next one would be covered, and it is not above itself.
    have hcovers := covers_release_iff.2 ((Version.lt_next?_iff hnext p.given_isPrefix hle).1 hlt)
    exact List.lt_irrefl _ (Version.gt_release_iff.1 (h _ hcovers))
  · rintro hle w ⟨x, y, z, rfl, hw⟩
    have hlt := (Version.lt_next?_iff hnext p.given_isPrefix (start_le hp hw)).2 hw
    refine Version.gt_release_iff.2 (List.not_le.1 fun hge => ?_)
    exact List.not_le.2 hlt (List.le_trans hle hge)

/-! ## Operators -/

/-- The bounds of an operator are the first release that is covered and the next one behind all of
    them. -/
theorem compare?_eq (hne : p.given ≠ []) (hp : p.given.length < 3) :
    p.compare? op = match op with
      | .eq => (Version.next? p.given).map (between p.start)
      | .gt => (Version.next? p.given).map fun upper => [.compare .gte upper]
      | .gte => some [.compare .gte p.start]
      | .lt => some [.compare .lt p.start]
      | .lte => (Version.next? p.given).map fun upper => [.compare .lt upper] := by
  cases p with
  | any => exact absurd rfl hne
  | full v => exact absurd hp (Nat.lt_irrefl 3)
  | major | minor => cases op <;> rfl

theorem compare?_eq_none (h : op.Overflows p) : p.compare? op = none := by
  obtain ⟨hop, hp, hlast⟩ := h
  have hne : p.given ≠ [] := by
    intro hnil
    rw [hnil] at hlast
    cases hlast
  rw [compare?_eq hne hp, Version.next?_eq_none hlast]
  rcases hop with rfl | rfl | rfl <;> rfl

theorem not_meetsCovered_gt_any : ¬ Partial.any.MeetsCovered (.release a b c) .gt :=
  fun h => List.lt_irrefl _ (Version.gt_release_iff.1 (h _ (covers_release_iff.2 List.nil_prefix)))

/-- Every release is among those that nothing fixes, and none is above or below all of them. -/
theorem exists_compare?_any (op : Operator) :
    ∃ group, Partial.any.compare? op = some group ∧ group ≠ [] ∧
      ∀ a b c, groupAdmits group (.release a b c) = true ↔
        Partial.any.MeetsCovered (.release a b c) op := by
  have hp : Partial.any.given.length < 3 := by decide
  cases op with
  | eq =>
    exact ⟨[.any], rfl, List.cons_ne_nil _ _,
      fun _ _ _ => iff_of_true rfl (covers_release_iff.2 List.nil_prefix)⟩
  | gt =>
    refine ⟨[.compare .lt (.release 0 0 0)], rfl, List.cons_ne_nil _ _, fun a b c => ?_⟩
    rw [groupAdmits_lt_iff]
    exact iff_of_false (List.not_lt.2 (Version.zero_le a b c)) not_meetsCovered_gt_any
  | gte =>
    exact ⟨[.any], rfl, List.cons_ne_nil _ _,
      fun a b c => iff_of_true rfl ((meetsCovered_gte_iff hp).2 (Version.zero_le a b c))⟩
  | lt =>
    refine ⟨[.compare .lt (.release 0 0 0)], rfl, List.cons_ne_nil _ _, fun a b c => ?_⟩
    exact groupAdmits_lt_iff.trans (meetsCovered_lt_iff hp).symm
  | lte =>
    exact ⟨[.any], rfl, List.cons_ne_nil _ _,
      fun _ _ _ => iff_of_true rfl not_meetsCovered_gt_any⟩

/-- Where some but not all numbers are given, the releases that they fix lie between two bounds. -/
theorem exists_compare?_given (hne : p.given ≠ []) (hp : p.given.length < 3)
    (h : ¬ op.Overflows p) :
    ∃ group, p.compare? op = some group ∧ group ≠ [] ∧
      ∀ a b c, groupAdmits group (.release a b c) = true ↔
        p.MeetsCovered (.release a b c) op := by
  have hnext (hop : op = .eq ∨ op = .gt ∨ op = .lte) :
      ∃ upper, Version.next? p.given = some upper :=
    Version.exists_next? hne hp.le fun hlast => h ⟨hop, hp, hlast⟩
  rw [compare?_eq hne hp]
  cases op with
  | eq =>
    obtain ⟨upper, hnext⟩ := hnext (Or.inl rfl)
    refine ⟨between p.start upper, by rw [hnext]; rfl, List.cons_ne_nil _ _, fun a b c => ?_⟩
    rw [groupAdmits_between_iff hnext p.given_isPrefix]
    exact (and_iff_right_of_imp (start_le hp)).trans covers_release_iff.symm
  | gt =>
    obtain ⟨upper, hnext⟩ := hnext (Or.inr (Or.inl rfl))
    refine ⟨[.compare .gte upper], by rw [hnext]; rfl, List.cons_ne_nil _ _, fun a b c => ?_⟩
    exact groupAdmits_gte_iff.trans (meetsCovered_gt_iff hp hnext).symm
  | gte =>
    exact ⟨_, rfl, List.cons_ne_nil _ _,
      fun a b c => groupAdmits_gte_iff.trans (meetsCovered_gte_iff hp).symm⟩
  | lt =>
    exact ⟨_, rfl, List.cons_ne_nil _ _,
      fun a b c => groupAdmits_lt_iff.trans (meetsCovered_lt_iff hp).symm⟩
  | lte =>
    obtain ⟨upper, hnext⟩ := hnext (Or.inr (Or.inr rfl))
    refine ⟨[.compare .lt upper], by rw [hnext]; rfl, List.cons_ne_nil _ _, fun a b c => ?_⟩
    rw [groupAdmits_lt_iff, ← List.not_le, ← meetsCovered_gt_iff hp hnext]
    rfl

/-- **What the clauses of an operator admit.** -/
theorem exists_compare? (h : ¬ op.Overflows p) :
    ∃ group, p.compare? op = some group ∧ group ≠ [] ∧
      ∀ a b c, groupAdmits group (.release a b c) = true ↔ p.Meets op (.release a b c) := by
  cases p with
  | any => exact exists_compare?_any op
  | major | minor => exact exists_compare?_given (List.cons_ne_nil _ _) (by simp [given]) h
  | full w =>
    refine ⟨[.compare op w], rfl, List.cons_ne_nil _ _, fun a b c => ?_⟩
    rw [groupAdmits_singleton]
    rfl

/-- Nothing is above or below all releases. -/
theorem not_meets_any (hop : op = .gt ∨ op = .lt) : ¬ Partial.any.Meets op (.release a b c) := by
  rcases hop with rfl | rfl
  · exact not_meetsCovered_gt_any
  · exact mt (meetsCovered_lt_iff (by decide)).1 (List.not_lt.2 (Version.zero_le a b c))

/-! ## Hyphen ranges -/

/-- The lower end of a hyphen range says what "at least" says. -/
theorem lowerEnd_admits_iff :
    groupAdmits p.lowerEnd (.release a b c) = true ↔ p.Meets .gte (.release a b c) := by
  have hfits : ¬ Operator.Overflows .gte p := by simp [Operator.Overflows]
  obtain ⟨group, hgroup, -, hadmits⟩ := exists_compare? hfits
  rw [← hadmits]
  cases p <;> cases hgroup <;> rfl

theorem upperEnd?_eq_none (h : Operator.Overflows .lte p) : p.upperEnd? = none := by
  have hnone := compare?_eq_none h
  cases p with
  | any | full => cases hnone
  | major | minor => exact hnone

/-- The upper end says what "at most" says. -/
theorem exists_upperEnd? (h : ¬ Operator.Overflows .lte p) :
    ∃ ends, p.upperEnd? = some ends ∧
      ∀ a b c, groupAdmits ends (.release a b c) = true ↔ p.Meets .lte (.release a b c) := by
  obtain ⟨group, hgroup, -, hadmits⟩ := exists_compare? h
  cases p with
  | any =>
    cases hgroup
    exact ⟨[], rfl, hadmits⟩
  | major | minor => exact ⟨group, hgroup, hadmits⟩
  | full w =>
    cases hgroup
    refine ⟨_, rfl, fun a b c => ?_⟩
    rw [← hadmits, groupAdmits_singleton, groupAdmits_singleton]
    split <;> rfl

theorem hyphen?_eq_none {q : Partial} (h : Operator.Overflows .lte q) : p.hyphen? q = none := by
  rw [hyphen?, upperEnd?_eq_none h]
  rfl

/-- **What the clauses of a hyphen range admit.** -/
theorem exists_hyphen? {q : Partial} (h : ¬ Operator.Overflows .lte q) :
    ∃ group, p.hyphen? q = some group ∧ group ≠ [] ∧
      ∀ a b c, groupAdmits group (.release a b c) = true ↔
        p.Meets .gte (.release a b c) ∧ q.Meets .lte (.release a b c) := by
  obtain ⟨ends, hends, hadmits⟩ := exists_upperEnd? h
  have hboth (a b c : UInt64) : groupAdmits (p.lowerEnd ++ ends) (.release a b c) = true ↔
      p.Meets .gte (.release a b c) ∧ q.Meets .lte (.release a b c) := by
    rw [groupAdmits_append, Bool.and_eq_true, lowerEnd_admits_iff, hadmits]
  rw [hyphen?, hends, Option.map_some]
  refine ⟨_, rfl, ?_⟩
  split
  · next hnil =>
    rw [hnil] at hboth
    exact ⟨List.cons_ne_nil _ _, hboth⟩
  · next hne => exact ⟨hne, hboth⟩

end Partial

/-! ## Range texts -/

namespace Operator

variable {op : Operator} {p : Partial}

theorem isOperatorChar_of_mem_symbols {sign : String} (h : sign ∈ op.symbols) :
    ∀ c ∈ sign.toList, isOperatorChar c = true := by
  cases op with
  | eq => rcases List.mem_pair.1 h with rfl | rfl <;> exact List.all_eq_true.1 rfl
  | gt | gte | lt | lte =>
    obtain rfl := List.mem_singleton.1 h
    exact fun _ => isOperatorChar_of_mem_symbol

theorem groupClauses?_symbol {sign : String} (hsign : sign ∈ op.symbols) {cs : List Char}
    (hcs : p.Spells cs) (hequal : op = .gt ∨ op = .lt → cs.head? ≠ some '=') :
    IsGroupText (sign.toList ++ cs) ∧ groupClauses? (sign.toList ++ cs) = p.compare? op := by
  obtain ⟨t, ht, hvalue⟩ := hcs.ofChars?
  have hread : Term.read? (sign.toList ++ cs) = some (.compare op t) := by
    rw [Term.read?_symbols hsign hcs.head hequal, ht]
    rfl
  have hclauses : (Term.compare op t).clauses? = p.compare? op := by
    rw [Term.clauses?, hvalue]
    rfl
  rw [← hclauses]
  exact groupClauses?_sign (isOperatorChar_of_mem_symbols hsign) hcs hread

end Operator

/-- Two partial versions with a hyphen between blanks between them are a hyphen range. -/
theorem groupClauses?_hyphen {cs ds : List Char} {p q : Partial} (hp : p.Spells cs)
    (hq : q.Spells ds) :
    IsGroupText (cs ++ ' ' :: '-' :: ' ' :: ds) ∧
      groupClauses? (cs ++ ' ' :: '-' :: ' ' :: ds) = p.hyphen? q := by
  obtain ⟨lower, upper, hread, hlower, hupper⟩ := readHyphen?_spells hp hq
  refine ⟨?_, ?_⟩
  · have hjoin : cs ++ ' ' :: '-' :: ' ' :: ds = cs ++ [' ', '-', ' '] ++ ds := by simp
    rw [hjoin]
    exact hp.isGroupText.append hq.isGroupText (by decide)
  · rw [groupClauses?, hread]
    show lower.value?.bind _ = _
    rw [hlower, Option.bind_some, hupper]
    rfl

namespace Capabilities

/-- **Operators on partial versions and hyphen ranges mean what they say.** They are refused where the
    first release above those that a version stands for is needed and does not exist. A version that
    is spelt with `=` in front of it does not follow `>` or `<`: they would be `>=` or `<=`. -/
theorem npm_parseRange_comparators {p : Partial} {text : String} (htext : p.Spells text.toList) :
    (∀ op : Operator, ∀ sign ∈ op.symbols, (op = .gt ∨ op = .lt → text.toList.head? ≠ some '=') →
      (op.Overflows p →
        ∃ refusal, npm.parseRange (sign ++ text) = .error refusal ∧
          refusal.code = "EINVALIDRANGE") ∧
      (¬ op.Overflows p →
        ∃ group, npm.parseRange (sign ++ text) = .ok [group] ∧
          (∀ a b c, groupAdmits group (.release a b c) = true ↔ p.Meets op (.release a b c)) ∧
          (p = .any → op = .gt ∨ op = .lt → ∀ a b c, groupAdmits group (.release a b c) = false))) ∧
    (∀ (q : Partial) (other : String), q.Spells other.toList →
      (Operator.Overflows .lte q →
        ∃ refusal, npm.parseRange (text ++ " - " ++ other) = .error refusal ∧
          refusal.code = "EINVALIDRANGE") ∧
      (¬ Operator.Overflows .lte q →
        ∃ group, npm.parseRange (text ++ " - " ++ other) = .ok [group] ∧
          ∀ a b c, groupAdmits group (.release a b c) = true ↔
            p.Meets .gte (.release a b c) ∧ q.Meets .lte (.release a b c))) := by
  refine ⟨fun op sign hsign hequal => ?_, fun q other hother => ?_⟩
  · obtain ⟨hgroupText, hclauses⟩ := op.groupClauses?_symbol hsign htext hequal
    rw [← String.toList_append] at hgroupText hclauses
    refine ⟨fun hover => ?_, fun hfits => ?_⟩
    · rw [Partial.compare?_eq_none hover] at hclauses
      exact npm_parseRange_refused hgroupText hclauses
    · obtain ⟨group, hgroup, hne, hadmits⟩ := Partial.exists_compare? hfits
      refine ⟨group, npm_parseRange_of_group hgroupText (hclauses.trans hgroup) hne, hadmits, ?_⟩
      rintro rfl hop a b c
      exact Bool.eq_false_iff.2 (mt (hadmits a b c).1 (Partial.not_meets_any hop))
  · have htoList : (text ++ " - " ++ other).toList =
        text.toList ++ ' ' :: '-' :: ' ' :: other.toList := by
      simp
    obtain ⟨hgroupText, hclauses⟩ := groupClauses?_hyphen htext hother
    rw [← htoList] at hgroupText hclauses
    refine ⟨fun hover => ?_, fun hfits => ?_⟩
    · rw [Partial.hyphen?_eq_none hover] at hclauses
      exact npm_parseRange_refused hgroupText hclauses
    · obtain ⟨group, hgroup, hne, hadmits⟩ := Partial.exists_hyphen? hfits
      exact ⟨group, npm_parseRange_of_group hgroupText (hclauses.trans hgroup) hne, hadmits⟩

/-- "At most `1.2.x`" takes in what `1.2.x` covers, as the upper end of a hyphen range does; there is
    no release above all of those that begin with the largest word. -/
theorem covered_releases_are_at_most :
    (∃ group, npm.parseRange "<=1.2.x" = .ok [group] ∧
      ∀ a b c, groupAdmits group (.release a b c) = true ↔
        ¬ ∀ w, (Partial.minor 1 2).Covers w → (Version.release a b c).precedence w = .gt) ∧
      (∃ group, npm.parseRange "1.2.x - v2" = .ok [group] ∧
        ∀ a b c, groupAdmits group (.release a b c) = true ↔
          (Partial.minor 1 2).Meets .gte (.release a b c) ∧
            (Partial.major 2).Meets .lte (.release a b c)) ∧
      ∃ refusal, npm.parseRange "1.2.x - 18446744073709551615" = .error refusal ∧
        refusal.code = "EINVALIDRANGE" := by
  have htext : Partial.Spells "1.2.x".toList (.minor 1 2) :=
    ⟨[], "1.2.x".toList, rfl, nofun, Partial.spellsParts_iff.2 ⟨_, rfl, rfl⟩⟩
  have hupper : Partial.Spells "v2".toList (.major 2) :=
    ⟨['v'], "2".toList, rfl, by simp, Partial.spellsParts_iff.2 ⟨_, rfl, rfl⟩⟩
  have hlargest : Partial.Spells "18446744073709551615".toList (.major maxWord) :=
    ⟨[], "18446744073709551615".toList, rfl, nofun, Partial.spellsParts_iff.2 ⟨_, rfl, rfl⟩⟩
  have hover : Operator.Overflows .lte (.major maxWord) :=
    ⟨Or.inr (Or.inr rfl), by decide, rfl⟩
  have hfits : ¬ Operator.Overflows .lte (.minor 1 2) := fun h => absurd h.2.2 (by decide)
  have hfits' : ¬ Operator.Overflows .lte (.major 2) := fun h => absurd h.2.2 (by decide)
  obtain ⟨hoperators, hhyphens⟩ := npm_parseRange_comparators htext
  obtain ⟨group, hgroup, hadmits, -⟩ := (hoperators .lte "<=" (by decide) (by decide)).2 hfits
  exact ⟨⟨group, hgroup, hadmits⟩, (hhyphens _ "v2" hupper).2 hfits',
    (hhyphens _ "18446744073709551615" hlargest).1 hover⟩

end Capabilities

end DepSpec
