import DepSpec.Proofs.Results
import DepSpec.Range.Admits
import DepSpec.Range.Desugar

set_option autoImplicit false

/-! # Sending a range

A range is sent clause by clause. If every clause can be sent, the groups and their clauses stay where
they are (`ParsedRange.constraint_eq_ok_iff`); if one cannot, the first of those in reading order
decides what is told (`ParsedRange.constraint_eq_error_iff_flatten`). Nothing changes about the
releases that the range is met by. What that means on this side is said of the operator as it is spelt
and of the versions as they are parsed (`Clause.Met`), and on the other side of what is sent. -/

namespace DepSpec

open Text

/-! ## Parsed versions and clauses -/

/-- Numbers come before texts. -/
def Identifier.precedence : Identifier → Identifier → Ordering
  | .numeric m, .numeric n => compare m n
  | .numeric _, .alphanumeric _ => .lt
  | .alphanumeric _, .numeric _ => .gt
  | .alphanumeric s, .alphanumeric t => compareBytes s t

/-- The order of versions with the identifiers that the parser has read. -/
def Version.order (v w : Version) : Ordering :=
  (compare v.major w.major).then <| (compare v.minor w.minor).then <|
    (compare v.patch w.patch).then <|
      comparePrereleases Identifier.precedence v.prerelease w.prerelease

/-- Whether a version meets a clause as it is parsed. The mark for any version stands without an
    operator; before a version, no operator means equality. -/
def Clause.Met (c : Clause) (v : Version) : Prop :=
  match c.bound with
  | .any => c.operator = ""
  | .version w =>
    (c.operator = "" ∧ v.order w = .eq) ∨ (c.operator = ">" ∧ v.order w = .gt) ∨
      (c.operator = ">=" ∧ v.order w ≠ .lt) ∨ (c.operator = "<" ∧ v.order w = .lt) ∨
      (c.operator = "<=" ∧ v.order w ≠ .gt)

/-- Whether a version meets all clauses of some group. -/
def ParsedRange.Met (range : ParsedRange) (v : Version) : Prop :=
  ∃ group ∈ range, ∀ c ∈ group, c.Met v

/-! ## The order of releases -/

/-- A release is told from another version by the numbers, and from a prerelease with the same numbers
    by that alone. Whether its identifiers change their kinds when they are sent makes no difference. -/
theorem Version.order_of_release {v : Version} (hv : v.prerelease = []) (w : Version) :
    v.order w = v.record.precedence w.record := by
  have hprerelease : comparePrereleases Identifier.precedence [] w.prerelease =
      comparePrereleases PrereleaseId.precedence [] (w.prerelease.map Identifier.prereleaseId) := by
    cases w.prerelease <;> rfl
  rw [order, VersionRecord.precedence, record, hv, hprerelease]
  rfl

/-! ## One clause -/

namespace Clause

variable {c : Clause} {sent : Comparator} {v : Version}

theorem met_compare_iff (op : Operator) (w : Version) :
    (compare op w).Met v ↔ op.holds (v.order w) = true := by
  cases op <;> simp [compare, Met, Operator.symbol, Operator.holds]

/-- What can be sent is the mark for any version, or a version behind a known operator. -/
theorem comparator_cases (h : c.comparator = .ok sent) :
    (c = .any ∧ sent = .any) ∨ ∃ op w, c = .compare op w ∧ sent = .compare op w.record := by
  obtain ⟨operator, bound⟩ := c
  unfold comparator at h
  split at h
  · next hbound =>
    split at h
    · next hoperator =>
      cases h
      obtain rfl : bound = .any := hbound
      obtain rfl : operator = "" := hoperator
      exact Or.inl ⟨rfl, rfl⟩
    · cases h
  · next w hbound =>
    split at h
    · next op hop =>
      cases h
      obtain rfl : bound = .version w := hbound
      obtain rfl := Operator.symbol_of_ofSymbol? hop
      exact Or.inr ⟨op, w, rfl, rfl⟩
    · cases h

/-- **A clause that is sent is met by the releases that it was met by.** -/
theorem admits_comparator_iff (h : c.comparator = .ok sent) (hv : v.prerelease = []) :
    sent.admits v.record = true ↔ c.Met v := by
  rcases comparator_cases h with ⟨rfl, rfl⟩ | ⟨op, w, rfl, rfl⟩
  · exact iff_of_true rfl rfl
  · rw [met_compare_iff, Version.order_of_release hv]
    exact Iff.rfl

end Clause

/-! ## A whole range -/

namespace ParsedRange

variable {range : ParsedRange} {sent : Constraint}

theorem constraint_eq_ok_iff_forall₂ :
    range.constraint = .ok sent ↔
      List.Forall₂ (List.Forall₂ fun c s => c.comparator = .ok s) range sent := by
  rw [constraint, mapM_eq_ok_iff]
  simp only [mapM_eq_ok_iff]

/-- **A range is sent clause by clause.** -/
theorem constraint_eq_ok_iff :
    range.constraint = .ok sent ↔
      range.map (·.map Clause.comparator) = sent.map (·.map .ok) := by
  rw [constraint_eq_ok_iff_forall₂, map_eq_map_iff_forall₂]
  simp only [map_eq_map_iff_forall₂]

/-- **If it cannot be sent, the first clause that cannot be sent decides.** -/
theorem constraint_eq_error_iff_flatten {operator : String} :
    range.constraint = .error operator ↔
      ∃ front c back, range.flatten = front ++ c :: back ∧
        (∀ d ∈ front, ∃ s, d.comparator = .ok s) ∧ c.comparator = .error operator := by
  rw [constraint, mapM_mapM_eq_error_iff, mapM_eq_error_iff]

theorem exists_constraint_iff :
    (∃ sent, range.constraint = .ok sent) ↔
      ∀ group ∈ range, ∀ c ∈ group, ∃ s, c.comparator = .ok s := by
  constructor
  · rintro ⟨sent, h⟩ group hgroup c hc
    have hmap := constraint_eq_ok_iff.1 h
    obtain ⟨sentGroup, -, hsent⟩ := List.mem_map.1 (hmap ▸ List.mem_map_of_mem hgroup)
    obtain ⟨s, -, hs⟩ := List.mem_map.1 (hsent ▸ List.mem_map_of_mem hc)
    exact ⟨s, hs.symm⟩
  · exact fun h => exists_mapM_eq_ok fun group hgroup => exists_mapM_eq_ok (h group hgroup)

/-- **A range that is sent is met by the releases that it was met by.** -/
theorem admits_constraint_iff (h : range.constraint = .ok sent) {v : Version}
    (hv : v.prerelease = []) : sent.admits v.record = true ↔ range.Met v := by
  rw [Constraint.admits, List.any_eq_true, Met]
  refine (exists_mem_iff_of_forall₂ (constraint_eq_ok_iff_forall₂.1 h)
    fun group sentGroup hgroup => ?_).symm
  rw [List.all_eq_true]
  exact forall_mem_iff_of_forall₂ hgroup fun c s hc => (Clause.admits_comparator_iff hc hv).symm

/-! ## The law -/

/-- **Sending a range is sending its clauses.** It can be sent if each clause can. Then there are as
    many groups of as many clauses, every clause is sent to the place that it has, and a release meets
    the range on one side if it meets it on the other. Otherwise the first clause in reading order
    that cannot be sent decides what is told. -/
theorem constraint_is_pointwise (range : ParsedRange) :
    ((∃ sent, range.constraint = .ok sent) ↔
        ∀ group ∈ range, ∀ c ∈ group, ∃ s, c.comparator = .ok s) ∧
      (∀ sent, range.constraint = .ok sent →
        sent.map List.length = range.map List.length ∧
          (∀ i j : Nat, (sent[i]?.bind (·[j]?)).map .ok =
            (range[i]?.bind (·[j]?)).map Clause.comparator) ∧
          ∀ v : Version, v.prerelease = [] → (sent.admits v.record = true ↔ range.Met v)) ∧
      ∀ operator, range.constraint = .error operator ↔
        ∃ front c back, range.flatten = front ++ c :: back ∧
          (∀ d ∈ front, ∃ s, d.comparator = .ok s) ∧ c.comparator = .error operator := by
  refine ⟨exists_constraint_iff, fun sent h => ?_, fun operator => constraint_eq_error_iff_flatten⟩
  have hmap := constraint_eq_ok_iff.1 h
  refine ⟨?_, fun i j => ?_, fun v hv => admits_constraint_iff h hv⟩
  · have hlength := congrArg (·.map List.length) hmap
    simpa [Function.comp_def] using hlength.symm
  · have hentry := congrArg (fun groups => groups[i]?.bind (·[j]?)) hmap
    simpa [Option.map_bind, Option.bind_map, Function.comp_def] using hentry.symm

/-- A prerelease as a bound, whose identifier changes its kind when it is sent, an empty group, and a
    version of zeros beside the mark for any version. -/
def unevenRange : ParsedRange :=
  [[⟨">=", .version { major := 1, minor := 0, patch := 0, prerelease := [.alphanumeric "7"] }⟩,
    ⟨"<", .version (.release 1 0 1)⟩], [], [.any, ⟨"", .version (.release 0 0 0)⟩]]

theorem unevenRange_is_sent :
    (∀ group ∈ unevenRange, ∀ c ∈ group, ∃ s, c.comparator = .ok s) ∧
      ∃ sent, unevenRange.constraint = .ok sent ∧ sent.map List.length = [2, 0, 2] ∧
        sent[0]?.bind (·[0]?) =
          some (.compare .gte { major := 1, minor := 0, patch := 0, prerelease := [.int 7] }) ∧
        sent[2]?.bind (·[1]?) = some (.compare .eq { major := 0, minor := 0, patch := 0 }) ∧
        (sent.admits (Version.release 1 0 0).record = true ↔ unevenRange.Met (.release 1 0 0)) := by
  obtain ⟨hsent, hpointwise, -⟩ := constraint_is_pointwise unevenRange
  have hconstraint : ∃ sent, unevenRange.constraint = .ok sent := ⟨_, rfl⟩
  refine ⟨hsent.1 hconstraint, ?_⟩
  obtain ⟨sent, h⟩ := hconstraint
  obtain ⟨hlengths, hentries, hmet⟩ := hpointwise sent h
  have hentry {i j : Nat} {s : Comparator}
      (hs : (unevenRange[i]?.bind (·[j]?)).map Clause.comparator = some (.ok s)) :
      sent[i]?.bind (·[j]?) = some s := by
    obtain ⟨s', hs', heq⟩ := Option.map_eq_some_iff.1 ((hentries i j).trans hs)
    cases heq
    exact hs'
  exact ⟨sent, h, hlengths, hentry rfl, hentry rfl, hmet _ rfl⟩

end ParsedRange

end DepSpec
