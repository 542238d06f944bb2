import DepSpec.Proofs.Results
import DepSpec.Range.Admits
import DepSpec.Range.Parser

set_option autoImplicit false

/-! # Disjunctions of ranges

Two range texts with bars between them are read as the groups of the one followed by the groups of
the other. Reading a range has three steps: the text is cut at its bars, every piece is read as a
group, and the groups that hold nothing are dropped; what is left are the kept groups
(`ParsedRange.keptGroups?`). Each step goes from two texts to the text with bars between them, so
that the kept groups of that text are those of the two (`keptGroups?_append`). That one group for
any version takes the place of all groups changes nothing in what is admitted (`admits_absorb`), and
it makes no difference whether it is done once or first for each of the two (`absorb_append`). -/

namespace DepSpec

open Text

/-! ## Cutting -/

theorem splitBars_ne_nil (cs : List Char) : splitBars cs ≠ [] := by
  unfold splitBars
  split
  · exact List.cons_ne_nil _ _
  · exact List.cons_ne_nil _ _
  · split <;> exact List.cons_ne_nil _ _

/-- The bars between two texts are where the text is cut. If the first text ended with a bar, the cut
    could be one character earlier. -/
theorem splitBars_append {front : List Char} (h : front.getLast? ≠ some '|') (back : List Char) :
    splitBars (front ++ '|' :: '|' :: back) = splitBars front ++ splitBars back := by
  induction front using splitBars.induct with
  | case1 => rfl
  | case2 cs ih =>
    have hlast : cs.getLast? ≠ some '|' := by
      cases cs with
      | nil => nofun
      | cons => simpa using h
    rw [List.cons_append, List.cons_append, splitBars, ih hlast, splitBars, List.cons_append]
  | case3 c cs _ hnil => exact absurd hnil (splitBars_ne_nil cs)
  | case4 c cs hnotBars piece pieces hpieces ih =>
    -- A bar in front of the bars that are put in would be the end of the first text.
    have hnotBars' : ∀ rest, c = '|' → cs ++ '|' :: '|' :: back = '|' :: rest → False := by
      rintro rest rfl heq
      cases cs with
      | nil => exact h rfl
      | cons d cs =>
        obtain ⟨rfl, -⟩ := List.cons.inj heq
        exact hnotBars cs rfl rfl
    have hlast : cs.getLast? ≠ some '|' := by
      cases cs with
      | nil => nofun
      | cons => simpa using h
    rw [List.cons_append, splitBars, ih hlast, splitBars, hpieces]
    · rfl
    · exact hnotBars
    · exact hnotBars'

/-! ## The groups that are kept -/

namespace ParsedRange

/-- The groups of a text that hold a clause. -/
def keptGroups? (cs : List Char) : Option ParsedRange :=
  ((splitBars cs).mapM fun group => groupClauses? (trim group)).map
    (·.filter fun group => !group.isEmpty)

/-- A range text is valid if a group is kept. -/
theorem parse?_eq_some_iff {text : String} {range : ParsedRange} :
    parse? text = some range ↔
      ∃ kept, keptGroups? text.toList = some kept ∧ kept ≠ [] ∧ absorb kept = range := by
  unfold parse? keptGroups?
  cases (splitBars text.toList).mapM fun group => groupClauses? (trim group) with
  | none => simp
  | some groups =>
    cases hkept : groups.filter fun group => !group.isEmpty with
    | nil => simp [hkept]
    | cons group rest => simp [hkept]

theorem keptGroups?_append {front : List Char} (h : front.getLast? ≠ some '|') {back : List Char}
    {kept more : ParsedRange} (hfront : keptGroups? front = some kept)
    (hback : keptGroups? back = some more) :
    keptGroups? (front ++ '|' :: '|' :: back) = some (kept ++ more) := by
  obtain ⟨groups, hgroups, rfl⟩ := Option.map_eq_some_iff.1 hfront
  obtain ⟨others, hothers, rfl⟩ := Option.map_eq_some_iff.1 hback
  rw [keptGroups?, splitBars_append h, List.mapM_append, hgroups, hothers, ← List.filter_append]
  rfl

/-! ## One group for any version -/

theorem mem_absorb_iff {range : ParsedRange} : [Clause.any] ∈ absorb range ↔ [Clause.any] ∈ range := by
  unfold absorb
  split
  · next h => simp [h]
  · rfl

/-- Absorbing first in the parts makes no difference. -/
theorem absorb_append (kept more : ParsedRange) :
    absorb (absorb kept ++ absorb more) = absorb (kept ++ more) := by
  by_cases hany : [Clause.any] ∈ kept ++ more
  · have hany' : [Clause.any] ∈ absorb kept ++ absorb more := by
      simpa only [List.mem_append, mem_absorb_iff] using hany
    exact (if_pos hany').trans (if_pos hany).symm
  · obtain ⟨hkept, hmore⟩ := not_or.1 (mt List.mem_append.2 hany)
    have hself : absorb kept = kept := if_neg hkept
    have hself' : absorb more = more := if_neg hmore
    rw [hself, hself']

theorem groupAdmits_any (v : Version) : groupAdmits [.any] v = true := rfl

/-- The group for any version stands for the whole range that it is a group of. -/
theorem admits_absorb (range : ParsedRange) (v : Version) : (absorb range).admits v = range.admits v := by
  unfold absorb
  split
  · next hany =>
    have hadmits : range.admits v = true := List.any_eq_true.2 ⟨_, hany, groupAdmits_any v⟩
    rw [hadmits]
    rfl
  · rfl

theorem admits_append (range more : ParsedRange) (v : Version) :
    (range ++ more).admits v = (range.admits v || more.admits v) := List.any_append

/-! ## Disjunctions -/

/-- **Bars between two ranges are their disjunction.** The text is valid, its groups are those of the
    two ranges one after the other unless one of them is the group for any version, which is then
    the only one, and a version is admitted if one of the two ranges admits it. -/
theorem parse?_disjunction {a b : String} {ra rb : ParsedRange} (ha : parse? a = some ra)
    (hb : parse? b = some rb) (hlast : a.toList.getLast? ≠ some '|') :
    ∃ range, parse? (a ++ "||" ++ b) = some range ∧
      range = (if [Clause.any] ∈ ra ++ rb then [[Clause.any]] else ra ++ rb) ∧
      ∀ v, range.admits v = (ra.admits v || rb.admits v) := by
  obtain ⟨kept, hkept, hne, rfl⟩ := parse?_eq_some_iff.1 ha
  obtain ⟨more, hmore, -, rfl⟩ := parse?_eq_some_iff.1 hb
  have htext : (a ++ "||" ++ b).toList = a.toList ++ '|' :: '|' :: b.toList := by
    simp
  have hboth : keptGroups? (a ++ "||" ++ b).toList = some (kept ++ more) := by
    rw [htext]
    exact keptGroups?_append hlast hkept hmore
  have hneBoth : kept ++ more ≠ [] := by
    simp [hne]
  refine ⟨absorb (kept ++ more), parse?_eq_some_iff.2 ⟨_, hboth, hneBoth, rfl⟩,
    (absorb_append kept more).symm, fun v => ?_⟩
  rw [admits_absorb, admits_absorb, admits_absorb, admits_append]

/-- The range `^0.2 || 1.0.0`. -/
def caretOrExact : ParsedRange :=
  [[.compare .gte (.release 0 2 0), .compare .lt (.release 0 3 0)], [.compare .eq (.release 1 0 0)]]

/-- The range `>3.x`. -/
def fromFour : ParsedRange := [[.compare .gte (.release 4 0 0)]]

/-- A lone bar is a word that is dropped, and the group `|2` is dropped with it, also where the two
    texts are joined and three bars stand in a row. -/
theorem ranges_with_lone_bars_are_joined :
    parse? "^0.2 || 1.0.0 | " = some caretOrExact ∧ parse? "|2 || >3.x" = some fromFour ∧
      "^0.2 || 1.0.0 | ".toList.getLast? ≠ some '|' ∧
      ∃ range, parse? ("^0.2 || 1.0.0 | " ++ "||" ++ "|2 || >3.x") = some range ∧
        range = caretOrExact ++ fromFour ∧
        ∀ v, range.admits v = (caretOrExact.admits v || fromFour.admits v) := by
  have ha : parse? "^0.2 || 1.0.0 | " = some caretOrExact := by decide +kernel
  have hb : parse? "|2 || >3.x" = some fromFour := by decide +kernel
  have hlast : "^0.2 || 1.0.0 | ".toList.getLast? ≠ some '|' := by decide
  have hany : [Clause.any] ∉ caretOrExact ++ fromFour := by decide
  obtain ⟨range, hparse, hrange, hadmits⟩ := parse?_disjunction ha hb hlast
  rw [if_neg hany] at hrange
  exact ⟨ha, hb, hlast, range, hparse, hrange, hadmits⟩

/-- A group for any version in one of them is all that is left. -/
example : parse? ("^0.2 || 1.0.0" ++ "||" ++ "3 || x") = some [[.any]] := by decide +kernel

end ParsedRange

end DepSpec
