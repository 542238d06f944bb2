import DepSpec.Proofs.Resolution.Answers
import DepSpec.Proofs.Specifier.ExactVersions
import DepSpec.Proofs.Text.LetterCase

set_option autoImplicit false

/-! # Local paths

Resolver and classification both take a `file:` off a local path. The resolver takes it off in any
letter case, classification only in small letters. So the path of a classified file or directory is
the path that the resolver fetches from exactly if a `file:` in front is in small letters; with
capitals the classified path still holds it. Either path has the same ending
(`isTarball_localPath`). -/

namespace DepSpec

open Text

/-! ## Taking the scheme off -/

namespace Resolution

/-- The path of a local specifier: a `file:` in front is off, in whichever letter case. -/
def filePath (spec : List Char) : List Char := (afterFile? spec).getD spec

end Resolution

open Resolution

/-- The ways that the two paths of a specifier can go: there is a `file:` in small letters, or none
    in any letter case, or one with capitals, which classification leaves where it is. -/
theorem localPath_cases (spec : List Char) :
    (∃ rest, spec = "file:".toList ++ rest ∧ filePath spec = rest ∧
        Plan.localPath (String.ofList spec) = String.ofList rest) ∨
      (afterFile? spec = none ∧ filePath spec = spec ∧
        Plan.localPath (String.ofList spec) = String.ofList spec) ∨
      ∃ rest, afterFile? spec = some rest ∧ spec ≠ "file:".toList ++ rest ∧ filePath spec = rest ∧
        Plan.localPath (String.ofList spec) = String.ofList spec := by
  have hlocal : Plan.localPath (String.ofList spec) =
      String.ofList ((after? "file:".toList spec).getD spec) := by
    simp only [Plan.localPath, String.toList_ofList]
  rw [hlocal]
  cases hsmall : after? "file:".toList spec with
  | some rest =>
    obtain rfl := after?_eq_some_iff.1 hsmall
    exact Or.inl ⟨rest, rfl, rfl, rfl⟩
  | none =>
    right
    cases hfolded : afterFile? spec with
    | none => exact Or.inl ⟨rfl, by simp [filePath, hfolded], rfl⟩
    | some rest =>
      refine Or.inr ⟨rest, rfl, ?_, by simp [filePath, hfolded], rfl⟩
      intro heq
      rw [after?_eq_some_iff.2 heq] at hsmall
      cases hsmall

/-- What is taken off is shorter than the specifier. -/
theorem ne_of_afterFile? {spec rest : List Char} (h : afterFile? spec = some rest) :
    rest ≠ spec := by
  rintro rfl
  have hlength := length_of_afterFolded? h
  have hfile : "file:".toList.length = 5 := by decide
  omega

/-! ## The ending of a path -/

/-- The ending of a path does not reach back to a colon. -/
theorem isTarball_append (front : List Char) {c : Char} (hc : foldCase c = ':') (cs : List Char) :
    isTarball (front ++ c :: cs) = isTarball cs := by
  have hending {ending : List Char} (hcolon : ':' ∉ ending) :
      endsFolded ending (front ++ c :: cs) = endsFolded ending cs :=
    endsFolded_append front cs (hc ▸ hcolon)
  simp only [isTarball, tarballEndings, List.any_cons, List.any_nil]
  rw [hending (by decide), hending (by decide), hending (by decide)]

/-- Nor does it reach into a `file:` in front. -/
theorem isTarball_of_afterFile? {spec rest : List Char} (h : afterFile? spec = some rest) :
    isTarball spec = isTarball rest := by
  obtain ⟨front, rfl, hfront⟩ := afterFolded?_eq_some_iff.1 h
  cases front using List.reverseRecOn with
  | nil => cases hfront
  | append_singleton front c =>
    have hc : foldCase c = ':' := by simpa using congrArg List.getLast? hfront
    rw [List.append_assoc, List.singleton_append, isTarball_append front hc]

/-- **Either path ends like an archive if the other one does.** -/
theorem isTarball_localPath (spec : List Char) :
    isTarball (Plan.localPath (String.ofList spec)).toList = isTarball (filePath spec) := by
  rcases localPath_cases spec with ⟨rest, rfl, hpath, hlocal⟩ | ⟨-, hpath, hlocal⟩ |
    ⟨rest, hfolded, -, hpath, hlocal⟩
  · rw [hpath, hlocal, String.toList_ofList]
  · rw [hpath, hlocal, String.toList_ofList]
  · rw [hpath, hlocal, String.toList_ofList, isTarball_of_afterFile? hfolded]

/-! ## Classification -/

namespace Capabilities

theorem npm_resolve_eq_ok {name spec : String} {r : Resolution} :
    npm.resolve name spec = .ok r ↔ resolveChars (some name) spec.toList = .ok r :=
  mapError_eq_ok_iff

theorem toList_trimmed (raw : String) : (trimmed raw).toList = trim raw.toList :=
  String.toList_ofList

/-- **The classified path is the fetched path if a `file:` is in small letters, and only then.**
    What the resolver fetches from is the specifier without `file:` in whichever letter case, and
    what it saves is that path behind `file:`. If classification shows another path, it shows the
    whole specifier. -/
theorem local_path_is_fetched_iff {raw : String} {r : Resolution}
    (hr : npm.resolve placeholderName (trimmed raw) = .ok r)
    (hkind : r.kind = "file" ∨ r.kind = "directory") :
    ∃ path shown, r.fetch = some path ∧ r.save = some ("file:" ++ path) ∧
      path = String.ofList (filePath (trim raw.toList)) ∧
      npm.classify raw = .ok (if r.kind = "file" then .file shown else .directory shown) ∧
      (shown = path ↔ ∀ rest, afterFile? (trim raw.toList) = some rest →
        trim raw.toList = "file:".toList ++ rest) ∧
      (shown ≠ path → shown = trimmed raw) := by
  have hplan := plan_of_resolve hr
  rw [npm_resolve_eq_ok, toList_trimmed] at hr
  have hfile := ofFile_of_resolveChars hr hkind
  have hraw : r.raw = trimmed raw := by
    rw [hfile]
    rfl
  refine ⟨String.ofList (filePath (trim raw.toList)), Plan.localPath (trimmed raw), ?_, ?_, rfl,
    ?_, ?_, ?_⟩
  · rw [hfile]
    rfl
  · rw [hfile, ← String.ofList_toList (s := "file:"), ← String.ofList_append]
    rfl
  · rw [classify, hplan, Plan.ofResolution, hraw]
    rcases hkind with hkind | hkind
    · rw [hkind]
      rfl
    · rw [hkind]
      rfl
  · rcases localPath_cases (trim raw.toList) with ⟨rest, hspec, hpath, hlocal⟩ |
      ⟨hfolded, hpath, hlocal⟩ | ⟨rest, hfolded, hspec, hpath, hlocal⟩
    · rw [trimmed, hpath, hlocal]
      refine iff_of_true rfl ?_
      intro rest' hrest'
      rw [hspec] at hrest'
      cases hrest'
      exact hspec
    · rw [trimmed, hpath, hlocal, hfolded]
      exact iff_of_true rfl (by simp)
    · rw [trimmed, hpath, hlocal]
      refine iff_of_false ?_ fun h => hspec (h rest hfolded)
      intro heq
      exact ne_of_afterFile? hfolded (String.ofList_injective heq).symm
  · rcases localPath_cases (trim raw.toList) with ⟨rest, -, hpath, hlocal⟩ | ⟨-, -, hlocal⟩ |
      ⟨rest, -, -, -, hlocal⟩
    · intro hne
      rw [trimmed, hpath, hlocal] at hne
      exact absurd rfl hne
    · exact fun _ => hlocal
    · exact fun _ => hlocal

/-- Only the first `file:` is taken off, and here it is in small letters. -/
theorem second_scheme_is_part_of_path :
    ∃ r, npm.resolve placeholderName (trimmed " file:File:Pkg.TGZ\n") = .ok r ∧ r.kind = "file" ∧
      r.fetch = some "File:Pkg.TGZ" ∧ r.save = some "file:File:Pkg.TGZ" ∧
      npm.classify " file:File:Pkg.TGZ\n" = .ok (.file "File:Pkg.TGZ") := by
  have hr : npm.resolve placeholderName (trimmed " file:File:Pkg.TGZ\n") =
      .ok ((ofFile "file:File:Pkg.TGZ".toList).withName placeholderName) := by
    rw [npm_resolve_eq_ok, resolveChars_eq]
    rfl
  obtain ⟨path, shown, hfetch, hsave, hpath, hclassify, hiff, -⟩ :=
    local_path_is_fetched_iff hr (Or.inl rfl)
  obtain rfl : path = "File:Pkg.TGZ" := hpath
  have hshown : shown = "File:Pkg.TGZ" := hiff.2 fun rest hrest => by
    cases hrest
    rfl
  exact ⟨_, hr, rfl, hfetch, hsave, hshown ▸ hclassify⟩

/-- Capitals: the resolver fetches from the path, and classification shows the whole text. -/
theorem capital_scheme_stays_in_path :
    ∃ r, npm.resolve placeholderName (trimmed "FILE:../foo") = .ok r ∧ r.kind = "directory" ∧
      r.fetch = some "../foo" ∧
      npm.classify "FILE:../foo" = .ok (.directory "FILE:../foo") := by
  have hr : npm.resolve placeholderName (trimmed "FILE:../foo") =
      .ok ((ofFile "FILE:../foo".toList).withName placeholderName) := by
    rw [npm_resolve_eq_ok, resolveChars_eq]
    rfl
  refine ⟨_, hr, rfl, rfl, ?_⟩
  rw [classify, plan_of_resolve hr]
  rfl

end Capabilities

end DepSpec
