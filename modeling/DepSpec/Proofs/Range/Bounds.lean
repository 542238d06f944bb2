import DepSpec.Range.Meaning
import Mathlib.Tactic.Tauto

set_option autoImplicit false

/-! # Bounds and what they admit

A release is above or below another version as its numbers are in the order of lists
(`release_lt_iff`, `gt_release_iff`): a prerelease comes before the release with the same numbers, so
that it never decides. The bounds of a range lie between a version and the next release behind
some of its numbers (`Version.next?`); from the version on, the releases below the next one are
those that begin with these numbers (`lt_next?_iff`). -/

namespace DepSpec

open Text

namespace Version

/-! ## The order of releases -/

/-- The numbers of a version. -/
def numbers (v : Version) : List UInt64 := [v.major, v.minor, v.patch]

theorem precedence_eq_lt_iff {v w : Version} :
    v.precedence w = .lt ↔ v.numbers < w.numbers ∨ v.numbers = w.numbers ∧
      comparePrereleases PrereleaseId.precedence v.record.prerelease w.record.prerelease = .lt := by
  simp only [precedence, VersionRecord.precedence, Ordering.then_eq_lt, Std.compare_eq_lt,
    Std.compare_eq_iff_eq, numbers, List.cons_lt_cons_iff, List.cons.injEq, List.not_lt_nil, record]
  tauto

theorem precedence_eq_gt_iff {v w : Version} :
    v.precedence w = .gt ↔ w.numbers < v.numbers ∨ v.numbers = w.numbers ∧
      comparePrereleases PrereleaseId.precedence v.record.prerelease w.record.prerelease = .gt := by
  simp only [precedence, VersionRecord.precedence, Ordering.then_eq_gt, Std.compare_eq_gt,
    Std.compare_eq_iff_eq, numbers, List.cons_lt_cons_iff, List.cons.injEq, List.not_lt_nil, record]
  tauto

/-- No release is below a version with the same numbers. -/
theorem release_lt_iff {a b c : UInt64} {w : Version} :
    (release a b c).precedence w = .lt ↔ [a, b, c] < w.numbers := by
  have hnone : comparePrereleases PrereleaseId.precedence [] w.record.prerelease ≠ .lt := by
    cases w.record.prerelease <;> nofun
  rw [precedence_eq_lt_iff]
  exact or_iff_left fun h => hnone h.2

theorem release_not_lt_iff {a b c : UInt64} {w : Version} :
    (release a b c).precedence w ≠ .lt ↔ w.numbers ≤ [a, b, c] :=
  (not_congr release_lt_iff).trans List.not_lt

/-- No version is above the release with the same numbers. -/
theorem gt_release_iff {v : Version} {a b c : UInt64} :
    v.precedence (release a b c) = .gt ↔ [a, b, c] < v.numbers := by
  have hnone : comparePrereleases PrereleaseId.precedence v.record.prerelease [] ≠ .gt := by
    cases v.record.prerelease <;> nofun
  rw [precedence_eq_gt_iff]
  exact or_iff_left fun h => hnone h.2

/-! ## The next release -/

/-- The first release above all those whose numbers begin like this. -/
def next? : List UInt64 → Option Version
  | [a] => nextMajor? a
  | [a, b] => nextMinor? a b
  | [a, b, c] => nextPatch? a b c
  | _ => none

theorem nextWord?_eq_some {w next : UInt64} (h : nextWord? w = some next) :
    next.toNat = w.toNat + 1 := by
  unfold nextWord? toWord? at h
  split at h
  · next hlt =>
    cases h
    exact UInt64.toNat_ofNat_of_lt' hlt
  · cases h

theorem nextWord?_eq_none_iff {w : UInt64} : nextWord? w = none ↔ w = maxWord := by
  have hmax : maxWord.toNat + 1 = UInt64.size := rfl
  have hw : w.toNat < UInt64.size := w.toNat_lt_size
  rw [← UInt64.toNat_inj, nextWord?, toWord?]
  split
  · next hlt => exact iff_of_false (Option.some_ne_none _) (by omega)
  · next hge => exact iff_of_true rfl (by omega)

/-- There is no next release where the last number is the largest word. -/
theorem next?_eq_none {fixed : List UInt64} (h : fixed.getLast? = some maxWord) :
    next? fixed = none := by
  match fixed with
  | [] => rfl
  | [a] => simpa [next?, nextMajor?, nextWord?_eq_none_iff] using h
  | [a, b] => simpa [next?, nextMinor?, nextWord?_eq_none_iff] using h
  | [a, b, c] => simpa [next?, nextPatch?, nextWord?_eq_none_iff] using h
  | a :: b :: c :: d :: rest => rfl

theorem exists_next? {fixed : List UInt64} (hne : fixed ≠ []) (hlength : fixed.length ≤ 3)
    (h : fixed.getLast? ≠ some maxWord) : ∃ upper, next? fixed = some upper := by
  rw [← Option.ne_none_iff_exists']
  match fixed with
  | [] => exact absurd rfl hne
  | [a] => simpa [next?, nextMajor?, nextWord?_eq_none_iff] using h
  | [a, b] => simpa [next?, nextMinor?, nextWord?_eq_none_iff] using h
  | [a, b, c] => simpa [next?, nextPatch?, nextWord?_eq_none_iff] using h
  | a :: b :: c :: d :: rest =>
    simp only [List.length_cons] at hlength
    omega

/-- Where there is one, that number goes one up, and there are zeros behind it. -/
theorem next?_eq_some {fixed : List UInt64} {upper : Version} (h : next? fixed = some upper) :
    (∃ x next, fixed = [x] ∧ next.toNat = x.toNat + 1 ∧ upper = release next 0 0) ∨
      (∃ x y next, fixed = [x, y] ∧ next.toNat = y.toNat + 1 ∧ upper = release x next 0) ∨
      ∃ x y z next, fixed = [x, y, z] ∧ next.toNat = z.toNat + 1 ∧ upper = release x y next := by
  unfold next? at h
  split at h
  · obtain ⟨next, hword, rfl⟩ := Option.map_eq_some_iff.1 h
    exact Or.inl ⟨_, next, rfl, nextWord?_eq_some hword, rfl⟩
  · obtain ⟨next, hword, rfl⟩ := Option.map_eq_some_iff.1 h
    exact Or.inr (Or.inl ⟨_, _, next, rfl, nextWord?_eq_some hword, rfl⟩)
  · obtain ⟨next, hword, rfl⟩ := Option.map_eq_some_iff.1 h
    exact Or.inr (Or.inr ⟨_, _, _, next, rfl, nextWord?_eq_some hword, rfl⟩)
  · cases h

/-- Numbers are compared from the front. -/
theorem numbers_lt_iff {a b c x y z : UInt64} :
    [a, b, c] < [x, y, z] ↔ a.toNat < x.toNat ∨ a.toNat = x.toNat ∧
      (b.toNat < y.toNat ∨ b.toNat = y.toNat ∧ c.toNat < z.toNat) := by
  simp only [List.cons_lt_cons_iff, List.not_lt_nil, and_false, or_false, UInt64.lt_iff_toNat_lt,
    UInt64.toNat_inj]

variable {fixed : List UInt64} {lower upper : Version}

/-- From a version on, the releases below the next one agree with the numbers that are fixed. -/
theorem lt_next?_iff (hnext : next? fixed = some upper) (hfixed : fixed <+: lower.numbers)
    {a b c : UInt64} (hle : lower.numbers ≤ [a, b, c]) :
    [a, b, c] < upper.numbers ↔ fixed <+: [a, b, c] := by
  have hzero : (0 : UInt64).toNat = 0 := rfl
  rw [← List.not_lt] at hle
  rcases next?_eq_some hnext with ⟨x, next, rfl, hsucc, rfl⟩ | ⟨x, y, next, rfl, hsucc, rfl⟩ |
    ⟨x, y, z, next, rfl, hsucc, rfl⟩ <;>
  · simp only [numbers, release, numbers_lt_iff, List.cons_prefix_cons, List.nil_prefix, and_true,
      ← UInt64.toNat_inj] at hfixed hle ⊢
    omega

/-- The next release is above the version: no number starts again from zero. -/
theorem precedence_next? (hnext : next? fixed = some upper) (hfixed : fixed <+: lower.numbers) :
    lower.precedence upper = .lt := by
  refine precedence_eq_lt_iff.2 (Or.inl ?_)
  rcases next?_eq_some hnext with ⟨x, next, rfl, hsucc, rfl⟩ | ⟨x, y, next, rfl, hsucc, rfl⟩ |
    ⟨x, y, z, next, rfl, hsucc, rfl⟩ <;>
  · simp only [numbers, release, numbers_lt_iff, List.cons_prefix_cons, List.nil_prefix, and_true,
      ← UInt64.toNat_inj] at hfixed ⊢
    omega

theorem zero_le (a b c : UInt64) : (release 0 0 0).numbers ≤ [a, b, c] := by
  have hzero : (0 : UInt64).toNat = 0 := rfl
  simp only [← List.not_lt, numbers, release, numbers_lt_iff]
  omega

end Version

theorem Partial.given_isPrefix (p : Partial) : p.given <+: p.start.numbers := by
  cases p with
  | any => exact List.nil_prefix
  | major a => exact ⟨[0, 0], rfl⟩
  | minor a b => exact ⟨[0], rfl⟩
  | full v => exact List.prefix_rfl

/-! ## Bounds -/

theorem groupAdmits_singleton (op : Operator) (v w : Version) :
    groupAdmits [.compare op w] v = op.holds (v.precedence w) := by
  rw [groupAdmits, List.all_cons, List.all_nil, Bool.and_true, Clause.admits_compare]

theorem groupAdmits_append (group more : List Clause) (v : Version) :
    groupAdmits (group ++ more) v = (groupAdmits group v && groupAdmits more v) := List.all_append

theorem groupAdmits_gte_iff {a b c : UInt64} {w : Version} :
    groupAdmits [.compare .gte w] (.release a b c) = true ↔ w.numbers ≤ [a, b, c] := by
  rw [groupAdmits_singleton, ← Version.release_not_lt_iff]
  exact bne_iff_ne

theorem groupAdmits_lt_iff {a b c : UInt64} {w : Version} :
    groupAdmits [.compare .lt w] (.release a b c) = true ↔ [a, b, c] < w.numbers := by
  rw [groupAdmits_singleton, ← Version.release_lt_iff]
  exact beq_iff_eq

/-- **From a version on and below the next release are the releases that agree with the numbers that
    are fixed.** -/
theorem groupAdmits_between_iff {fixed : List UInt64} {lower upper : Version}
    (hnext : Version.next? fixed = some upper) (hfixed : fixed <+: lower.numbers) {a b c : UInt64} :
    groupAdmits (between lower upper) (.release a b c) = true ↔
      lower.numbers ≤ [a, b, c] ∧ fixed <+: [a, b, c] := by
  have hsplit : between lower upper = [.compare .gte lower] ++ [.compare .lt upper] := rfl
  rw [hsplit, groupAdmits_append, Bool.and_eq_true, groupAdmits_gte_iff, groupAdmits_lt_iff]
  exact and_congr_right fun hle => Version.lt_next?_iff hnext hfixed hle

end DepSpec
