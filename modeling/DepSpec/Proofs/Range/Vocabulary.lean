import DepSpec.Proofs.Results
import DepSpec.Proofs.Version.WrittenForm
import DepSpec.Range.Parser

set_option autoImplicit false

/-! # The clauses of parsed ranges

Every clause that the range reader makes is the mark for any version, or compares with a loose
version by an operator that the receiver knows (`Clause.IsKnown`), so that a parsed range can always
be sent. There is one lemma for each way to make clauses, along the definitions from `Partial` up to
`ParsedRange.parse?`. -/

namespace DepSpec

open Text

/-! ## Known clauses -/

/-- A clause that the receiver knows. -/
inductive Clause.IsKnown : Clause → Prop
  | any : IsKnown .any
  | compare (op : Operator) {v : Version} (hv : v.IsLoose) : IsKnown (.compare op v)

theorem Clause.IsKnown.comparator {c : Clause} (h : c.IsKnown) : ∃ sent, c.comparator = .ok sent := by
  cases h with
  | any => exact ⟨.any, rfl⟩
  | @compare op v hv =>
    refine ⟨.compare op v.record, ?_⟩
    rw [Clause.comparator, Clause.compare]
    dsimp only
    rw [Operator.ofSymbol?_symbol]

/-- A list of clauses that the receiver knows. -/
def AllKnown (group : List Clause) : Prop := ∀ c ∈ group, c.IsKnown

theorem allKnown_nil : AllKnown [] := nofun

theorem allKnown_any : AllKnown [.any] := by
  intro c hc
  rw [List.mem_singleton.1 hc]
  exact .any

theorem allKnown_compare (op : Operator) {v : Version} (hv : v.IsLoose) :
    AllKnown [.compare op v] := by
  intro c hc
  rw [List.mem_singleton.1 hc]
  exact .compare op hv

theorem AllKnown.append {group more : List Clause} (h : AllKnown group) (hmore : AllKnown more) :
    AllKnown (group ++ more) :=
  fun c hc => (List.mem_append.1 hc).elim (h c) (hmore c)

theorem allKnown_between {lower upper : Version} (hlower : lower.IsLoose) (hupper : upper.IsLoose) :
    AllKnown (between lower upper) :=
  (allKnown_compare .gte hlower).append (allKnown_compare .lt hupper)

/-- A range of known clauses can be sent. -/
theorem ParsedRange.exists_constraint {range : ParsedRange} (h : ∀ group ∈ range, AllKnown group) :
    ∃ sent, range.constraint = .ok sent :=
  exists_mapM_eq_ok fun group hgroup => exists_mapM_eq_ok fun c hc => (h group hgroup c hc).comparator

/-! ## Versions of bounds -/

namespace Version

theorem isLoose_release (major minor patch : UInt64) : (release major minor patch).IsLoose :=
  ⟨nofun, nofun⟩

theorem IsLoose.withoutBuild {v : Version} (h : v.IsLoose) : v.withoutBuild.IsLoose :=
  ⟨h.prerelease, nofun⟩

/-- The next releases are loose. -/
theorem isLoose_of_mem_map {next : Option UInt64} {f : UInt64 → Version}
    (hf : ∀ n, (f n).IsLoose) : ∀ v ∈ next.map f, v.IsLoose := by
  intro v hv
  obtain ⟨n, -, rfl⟩ := Option.map_eq_some_iff.1 hv
  exact hf n

theorem isLoose_nextMajor (a : UInt64) : ∀ v ∈ nextMajor? a, v.IsLoose :=
  isLoose_of_mem_map fun _ => isLoose_release ..

theorem isLoose_nextMinor (a b : UInt64) : ∀ v ∈ nextMinor? a b, v.IsLoose :=
  isLoose_of_mem_map fun _ => isLoose_release ..

theorem isLoose_nextPatch (a b c : UInt64) : ∀ v ∈ nextPatch? a b c, v.IsLoose :=
  isLoose_of_mem_map fun _ => isLoose_release ..

end Version

/-! ## Desugaring -/

/-- Bounds that are made of a successor are known if there is one. -/
theorem allKnown_of_map {bounds : Version → List Clause}
    (hbounds : ∀ v : Version, v.IsLoose → AllKnown (bounds v)) {next : Option Version}
    (hnext : ∀ v ∈ next, v.IsLoose) {group : List Clause} (h : next.map bounds = some group) :
    AllKnown group := by
  obtain ⟨v, hv, rfl⟩ := Option.map_eq_some_iff.1 h
  exact hbounds v (hnext v hv)

namespace Partial

open Version

/-- A partial version whose version, if it is a full one, is loose. -/
def IsLoose (p : Partial) : Prop := ∀ v, p = .full v → v.IsLoose

variable {p : Partial} {group : List Clause}

theorem caret?_known (hp : p.IsLoose) (h : p.caret? = some group) : AllKnown group := by
  cases p with
  | any =>
    cases h
    exact allKnown_any
  | major a =>
    exact allKnown_of_map (fun _ => allKnown_between (isLoose_release ..)) (isLoose_nextMajor a) h
  | minor a b =>
    refine allKnown_of_map (fun _ => allKnown_between (isLoose_release ..)) ?_ h
    split
    · exact isLoose_nextMinor 0 b
    · exact isLoose_nextMajor a
  | full v =>
    refine allKnown_of_map (fun _ => allKnown_between (hp v rfl).withoutBuild) ?_ h
    split
    · exact isLoose_nextMajor v.major
    · split
      · exact isLoose_nextMinor 0 v.minor
      · exact isLoose_nextPatch 0 0 v.patch

theorem tilde?_known (hp : p.IsLoose) (h : p.tilde? = some group) : AllKnown group := by
  cases p with
  | any =>
    cases h
    exact allKnown_any
  | major a =>
    exact allKnown_of_map (fun _ => allKnown_between (isLoose_release ..)) (isLoose_nextMajor a) h
  | minor a b =>
    exact allKnown_of_map (fun _ => allKnown_between (isLoose_release ..)) (isLoose_nextMinor a b) h
  | full v =>
    exact allKnown_of_map (fun _ => allKnown_between (hp v rfl).withoutBuild)
      (isLoose_nextMinor v.major v.minor) h

theorem isLoose_above (a : UInt64) (b : Option UInt64) : ∀ v ∈ above? a b, v.IsLoose := by
  cases b with
  | none => exact isLoose_nextMajor a
  | some b => exact isLoose_nextMinor a b

theorem comparePart?_known {op : Operator} {a : UInt64} {b : Option UInt64}
    (h : comparePart? op a b = some group) : AllKnown group := by
  cases op with
  | eq =>
    exact allKnown_of_map (fun _ => allKnown_between (isLoose_release ..)) (isLoose_above a b) h
  | gt => exact allKnown_of_map (fun _ => allKnown_compare .gte) (isLoose_above a b) h
  | lte => exact allKnown_of_map (fun _ => allKnown_compare .lt) (isLoose_above a b) h
  | gte | lt =>
    cases h
    exact allKnown_compare _ (isLoose_release ..)

theorem compare?_known (hp : p.IsLoose) {op : Operator} (h : p.compare? op = some group) :
    AllKnown group := by
  cases p with
  | any =>
    cases op with
    | gt | lt =>
      cases h
      exact allKnown_compare _ (isLoose_release ..)
    | eq | gte | lte =>
      cases h
      exact allKnown_any
  | major | minor => exact comparePart?_known h
  | full v =>
    cases h
    exact allKnown_compare op (hp v rfl)

theorem lowerEnd_known (hp : p.IsLoose) : AllKnown p.lowerEnd := by
  cases p with
  | any => exact allKnown_nil
  | major | minor => exact allKnown_compare _ (isLoose_release ..)
  | full v => exact allKnown_compare _ (hp v rfl)

theorem upperEnd?_known (hp : p.IsLoose) (h : p.upperEnd? = some group) : AllKnown group := by
  cases p with
  | any =>
    cases h
    exact allKnown_nil
  | major a => exact allKnown_of_map (fun _ => allKnown_compare .lt) (isLoose_nextMajor a) h
  | minor a b => exact allKnown_of_map (fun _ => allKnown_compare .lt) (isLoose_nextMinor a b) h
  | full v =>
    cases h
    refine allKnown_compare _ ?_
    split
    · exact hp v rfl
    · exact (hp v rfl).withoutBuild

theorem hyphen?_known {upper : Partial} (hp : p.IsLoose) (hupper : upper.IsLoose)
    (h : p.hyphen? upper = some group) : AllKnown group := by
  obtain ⟨ends, hends, rfl⟩ := Option.map_eq_some_iff.1 h
  split
  · exact allKnown_any
  · exact (lowerEnd_known hp).append (upperEnd?_known hupper hends)

end Partial

/-! ## Reading -/

theorem PartialText.HasTokens.isLoose {t : PartialText} (ht : t.HasTokens) {p : Partial}
    (h : t.value? = some p) : p.IsLoose := by
  rintro v rfl
  exact Version.isLoose_of_value? ht h

/-- The text that a comparator compares with. -/
def Term.partialText : Term → PartialText
  | .caret p => p
  | .tilde p => p
  | .compare _ p => p

theorem Term.clauses?_known {t : Term} {group : List Clause} (ht : t.partialText.HasTokens)
    (h : t.clauses? = some group) : AllKnown group := by
  cases t with
  | caret p =>
    obtain ⟨value, hvalue, h⟩ := Option.bind_eq_some_iff.1 h
    exact Partial.caret?_known (ht.isLoose hvalue) h
  | tilde p =>
    obtain ⟨value, hvalue, h⟩ := Option.bind_eq_some_iff.1 h
    exact Partial.tilde?_known (ht.isLoose hvalue) h
  | compare op p =>
    obtain ⟨value, hvalue, h⟩ := Option.bind_eq_some_iff.1 h
    exact Partial.compare?_known (ht.isLoose hvalue) h

theorem Term.hasTokens_of_read? {cs : List Char} {t : Term} (h : read? cs = some t) :
    t.partialText.HasTokens := by
  unfold read? at h
  split at h <;> obtain ⟨p, hp, rfl⟩ := Option.map_eq_some_iff.1 h <;>
    exact PartialText.hasTokens_of_ofParts? hp

theorem termClauses?_known {cs : List Char} {group : List Clause}
    (h : termClauses? cs = some group) : AllKnown group := by
  unfold termClauses? at h
  split at h
  · cases h
    exact allKnown_any
  · obtain ⟨groups, hgroups, rfl⟩ := Option.map_eq_some_iff.1 h
    intro c hc
    obtain ⟨part, hpart, hmem⟩ := List.mem_flatten.1 hc
    obtain ⟨t, hread, ht⟩ := exists_of_mapM_eq_some hgroups hpart
    obtain ⟨word, -, hword⟩ := List.mem_filterMap.1 hread
    exact Term.clauses?_known (Term.hasTokens_of_read? hword) ht c hmem

theorem hasTokens_of_readHyphen? {cs : List Char} {lower upper : PartialText}
    (h : readHyphen? cs = some (lower, upper)) : lower.HasTokens ∧ upper.HasTokens := by
  unfold readHyphen? at h
  obtain ⟨lower', hlower, h⟩ := Option.bind_eq_some_iff.1 h
  split at h
  · split at h
    · obtain ⟨upper', hupper, heq⟩ := Option.map_eq_some_iff.1 h
      cases heq
      exact ⟨PartialText.hasTokens_of_ofParts? hlower, PartialText.hasTokens_of_ofParts? hupper⟩
    · cases h
  · cases h

theorem groupClauses?_known {cs : List Char} {group : List Clause}
    (h : groupClauses? cs = some group) : AllKnown group := by
  unfold groupClauses? at h
  split at h
  · next hhyphen =>
    obtain ⟨hlower, hupper⟩ := hasTokens_of_readHyphen? hhyphen
    obtain ⟨lower', hlower', h⟩ := Option.bind_eq_some_iff.1 h
    obtain ⟨upper', hupper', h⟩ := Option.bind_eq_some_iff.1 h
    exact Partial.hyphen?_known (hlower.isLoose hlower') (hupper.isLoose hupper') h
  · exact termClauses?_known h

theorem absorb_known {range : ParsedRange} (h : ∀ group ∈ range, AllKnown group) :
    ∀ group ∈ absorb range, AllKnown group := by
  unfold absorb
  split
  · intro group hgroup
    rw [List.mem_singleton.1 hgroup]
    exact allKnown_any
  · exact h

theorem ParsedRange.parse?_known {text : String} {range : ParsedRange}
    (h : parse? text = some range) : ∀ group ∈ range, AllKnown group := by
  unfold parse? at h
  obtain ⟨groups, hgroups, h⟩ := Option.bind_eq_some_iff.1 h
  split at h
  · cases h
  · cases h
    refine absorb_known fun group hgroup => ?_
    obtain ⟨cs, -, hcs⟩ := exists_of_mapM_eq_some hgroups (List.mem_filter.1 hgroup).1
    exact groupClauses?_known hcs

/-- **A range that can be read can be sent.** -/
theorem ParsedRange.exists_constraint_of_parse? {text : String} {range : ParsedRange}
    (h : parse? text = some range) : ∃ sent, range.constraint = .ok sent :=
  exists_constraint (parse?_known h)

end DepSpec
