import DepSpec.Proofs.Json.ReadBack
import DepSpec.Specifier.Json

set_option autoImplicit false

/-! # Specifiers are decoded to themselves

Each type has two lemmas: what it is sent as is a plain JSON value, and that value is decoded to
what was sent. The lemmas of a type use those of its parts. -/

namespace DepSpec

open Text Json

/-! ## Lists and variants -/

namespace Json

variable {α : Type}

/-- A list is decoded item by item. -/
theorem listOf?_map {encode : α → Json} {decode : Json → Option α}
    (h : ∀ x, decode (encode x) = some x) (xs : List α) :
    listOf? decode (.array (xs.map encode)) = some xs := by
  show (xs.map encode).mapM decode = some xs
  induction xs with
  | nil => rfl
  | cons x xs ih =>
    rw [List.map_cons, List.mapM_cons, h, ih]
    rfl

theorem isPlain_map {encode : α → Json} (h : ∀ x, (encode x).IsPlain) (xs : List α) :
    (Json.array (xs.map encode)).IsPlain := by
  refine .array ?_
  intro item hitem
  obtain ⟨x, -, rfl⟩ := List.mem_map.1 hitem
  exact h x

theorem isPlain_variant {name : String} {value : Json} (h : value.IsPlain) :
    (variant name value).IsPlain :=
  .record (List.forall_mem_singleton.2 h)

theorem word?_ofWord (w : UInt64) : (ofWord w).word? = some w := readWord?_writeWord w

end Json

/-! ## Versions -/

theorem PrereleaseId.isPlain_toJson (id : PrereleaseId) : id.toJson.IsPlain := by
  cases id with
  | int n => exact isPlain_variant (.word n)
  | text s => exact isPlain_variant (.text s)

theorem PrereleaseId.ofJson?_toJson (id : PrereleaseId) : ofJson? id.toJson = some id := by
  cases id with
  | int n =>
    show (ofWord n).word?.map int = some (int n)
    rw [word?_ofWord]
    rfl
  | text s => rfl

theorem VersionRecord.isPlain_toJson (v : VersionRecord) : v.toJson.IsPlain := by
  refine .record ?_
  simp only [List.forall_mem_cons, List.not_mem_nil, false_implies, implies_true, and_true]
  exact ⟨.word v.major, .word v.minor, .word v.patch,
    isPlain_map PrereleaseId.isPlain_toJson v.prerelease, isPlain_map IsPlain.text v.build⟩

theorem VersionRecord.ofJson?_toJson (v : VersionRecord) : ofJson? v.toJson = some v := by
  have hfields : v.toJson.record? fieldNames true = some
      [some (.ofWord v.major), some (.ofWord v.minor), some (.ofWord v.patch),
        some (.array (v.prerelease.map PrereleaseId.toJson)),
        some (.array (v.build.map Json.ofText))] := rfl
  have hbuild : listOf? text? (.array (v.build.map ofText)) = some v.build :=
    listOf?_map (fun s => show (ofText s).text? = some s from rfl) v.build
  rw [ofJson?, hfields]
  simp [word?_ofWord, listOf?_map PrereleaseId.ofJson?_toJson, hbuild]

/-! ## Ranges -/

theorem Comparator.isPlain_toJson (c : Comparator) : c.toJson.IsPlain := by
  cases c with
  | any => exact .text "Any"
  | compare op v => exact isPlain_variant v.isPlain_toJson

theorem Comparator.ofJson?_toJson (c : Comparator) : ofJson? c.toJson = some c := by
  cases c with
  | any => rfl
  | compare op v =>
    have hversion := v.ofJson?_toJson
    cases op <;>
    · show (VersionRecord.ofJson? v.toJson).map _ = _
      rw [hversion]
      rfl

theorem Constraint.isPlain_toJson (range : Constraint) : range.toJson.IsPlain :=
  isPlain_map (isPlain_map Comparator.isPlain_toJson) range

theorem Constraint.ofJson?_toJson (range : Constraint) : ofJson? range.toJson = some range :=
  listOf?_map (listOf?_map Comparator.ofJson?_toJson) range

/-! ## Specifiers -/

theorem AliasTarget.isPlain_toJson (target : AliasTarget) : target.toJson.IsPlain := by
  cases target with
  | tag t => exact isPlain_variant (.text t)
  | range r => exact isPlain_variant r.isPlain_toJson

theorem AliasTarget.ofJson?_toJson (target : AliasTarget) :
    ofJson? target.toJson = some target := by
  cases target with
  | tag t => rfl
  | range r =>
    show (Constraint.ofJson? r.toJson).map _ = _
    rw [r.ofJson?_toJson]
    rfl

theorem Specifier.isPlain_toJson (spec : Specifier) : spec.toJson.IsPlain := by
  cases spec with
  | git text | tag text | file text | directory text | remote text =>
    exact isPlain_variant (.text text)
  | range r => exact isPlain_variant r.isPlain_toJson
  | «alias» name registry target =>
    have hregistry : ((registry.map ofText).getD .null).IsPlain := by
      cases registry with
      | none => exact .null
      | some text => exact .text text
    refine isPlain_variant (.array ?_)
    simp only [List.forall_mem_cons, List.not_mem_nil, false_implies, implies_true, and_true]
    exact ⟨.text name, hregistry, target.isPlain_toJson⟩

/-- **A specifier is decoded to itself**: the registry of an alias is kept apart from its absence,
    and no two variants share a form. -/
theorem Specifier.ofJson?_toJson (spec : Specifier) : ofJson? spec.toJson = some spec := by
  cases spec with
  | git | tag | file | directory | remote => rfl
  | range r =>
    show (Constraint.ofJson? r.toJson).map _ = _
    rw [r.ofJson?_toJson]
    rfl
  | «alias» name registry target =>
    have hregistry : ((registry.map ofText).getD .null).optional? text? = some registry := by
      cases registry <;> rfl
    show (Json.optional? text? ((registry.map ofText).getD .null)).bind _ = _
    rw [hregistry]
    show (AliasTarget.ofJson? target.toJson).map _ = _
    rw [target.ofJson?_toJson]
    rfl

end DepSpec
