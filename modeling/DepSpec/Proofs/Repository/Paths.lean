import DepSpec.Proofs.Results
import DepSpec.Proofs.Text.Pieces
import DepSpec.Repository.Reader

set_option autoImplicit false

/-! # Paths of repositories

What a path on a host can name (`GitHost.Names`): an owner that does not begin with a slash, nested
only where the host nests, and a project in one piece. Every path that is read names such a pair
(`GitHost.names_of_readPath?`), and the path of a pair is read as that pair but for one `.git` at its
end (`GitHost.readPath?_of_names`), so that it is read as the pair if a `.git` is put there
(`GitHost.readPath?_written`).

Both directions go through the pieces between the slashes: those of the owner come first, whether a
path was stripped and cut or put together. -/

namespace DepSpec

open Text

namespace GitHost

/-! ## Owners and projects -/

/-- Owner and project that a path on the host can name. Only GitLab nests owners; it keeps paths
    with a lone dash inside for itself. -/
structure Names (host : GitHost) (user project : List Char) : Prop where
  user_ne_nil : user ≠ []
  user_head : user.head? ≠ some '/'
  nesting : if host = .gitLab then ['-'] ∉ (splitSlashes user).tail else '/' ∉ user
  project_ne_nil : project ≠ []
  project_slash : '/' ∉ project

variable {host : GitHost} {user project : List Char} {committish : Option (List Char)}

/-! ## Reading -/

/-- The first pieces are those of the owner, then comes the project. A committish is the last
    piece, behind at least one other. -/
theorem pieces_of_readSegments? {segments : List (List Char)}
    (h : host.readSegments? segments = some (user, project, committish))
    (hslash : ∀ piece ∈ segments, '/' ∉ piece) (hne : user ≠ []) :
    (∃ more, segments = splitSlashes user ++ project :: more) ∧
      (if host = .gitLab then ['-'] ∉ (splitSlashes user).tail else '/' ∉ user) ∧
      ∀ c ∈ committish, ∃ front, front ≠ [] ∧ segments = front ++ [c] := by
  unfold readSegments? at h
  split at h
  · -- GitLab: all but the last piece are the owner.
    split at h
    · cases h
    · next hallowed =>
      obtain ⟨last, hlast, heq⟩ := Option.map_eq_some_iff.1 h
      cases heq
      have hsegments : segments.dropLast ++ [project] = segments :=
        List.dropLast_append_getLast? project hlast
      have hfront : segments.dropLast ≠ [] := by
        intro hnil
        rw [hnil] at hne
        exact hne rfl
      have hsplit : splitSlashes (['/'].intercalate segments.dropLast) = segments.dropLast :=
        splitSlashes_intercalate hfront fun piece hpiece =>
          hslash piece (List.dropLast_subset _ hpiece)
      refine ⟨⟨[], ?_⟩, ?_, by simp⟩
      · rw [hsplit]
        exact hsegments.symm
      · rw [if_pos rfl, hsplit, List.tail_dropLast]
        simp only [Bool.or_eq_true, List.contains_iff_mem, not_or] at hallowed
        exact hallowed.1
  · next user' project' tree committish' =>
    split at h
    · cases h
      have huser : '/' ∉ user := hslash user (by simp)
      refine ⟨⟨[tree, committish'], ?_⟩, huser, ?_⟩
      · rw [splitSlashes_of_not_mem huser]
        rfl
      · intro c hc
        cases hc
        exact ⟨[user, project, tree], by simp, rfl⟩
    · cases h
  · next hgitLab =>
    cases h
    have huser : '/' ∉ user := hslash user (by simp)
    refine ⟨⟨[], ?_⟩, ?_, by simp⟩
    · rw [splitSlashes_of_not_mem huser]
      rfl
    · rw [if_neg (by simpa using hgitLab)]
      exact huser
  · cases h

/-- **A path that is read names its owner and project**, which stand in it with a slash between them,
    and a committish is a part of it as well. -/
theorem names_of_readPath? {path : List Char}
    (h : host.readPath? path = some (user, project, committish)) :
    host.Names user project ∧ user ++ '/' :: project <:+: path ∧
      ∀ c ∈ committish, c ≠ [] ∧ c ⊆ path := by
  unfold readPath? at h
  obtain ⟨⟨user', last, committish'⟩, hsegments, h⟩ := Option.bind_eq_some_iff.1 h
  dsimp only at h
  split at h
  · cases h
  · next hnonempty =>
    cases h
    simp only [Bool.or_eq_true, List.isEmpty_iff, not_or] at hnonempty
    obtain ⟨huser, hproject⟩ := hnonempty
    have hslash : ∀ piece ∈ splitSlashes (strip (· == '/') path), '/' ∉ piece :=
      fun piece => not_mem_of_mem_splitSlashes
    have hpiece {piece : List Char} (hmem : piece ∈ splitSlashes (strip (· == '/') path)) :
        piece ⊆ path :=
      fun c hc => mem_of_mem_strip (of_mem_splitWhere hmem hc).1
    obtain ⟨⟨more, hmore⟩, hnesting, hcommittish⟩ :=
      pieces_of_readSegments? hsegments hslash huser
    have hlast : last ∈ splitSlashes (strip (· == '/') path) := by
      rw [hmore]
      simp
    have hpath := eq_append_of_splitSlashes hmore (splitWhere_ne_nil _ user) (by simp)
    rw [intercalate_splitSlashes] at hpath
    refine ⟨⟨huser, ?_, hnesting, hproject, ?_⟩, ?_, ?_⟩
    · -- What is stripped does not begin with a slash, and it begins with the owner.
      intro hhead
      obtain ⟨rest, rfl⟩ := List.head?_eq_some_iff.1 hhead
      exact absurd (head_strip hpath) (by simp)
    · exact fun hmem => hslash last hlast ((withoutEnding_isPrefix _ last).subset hmem)
    · have hback : withoutEnding ".git".toList last <+: ['/'].intercalate (last :: more) :=
        (withoutEnding_isPrefix _ last).trans (prefix_intercalate _ last more)
      have hfront : user ++ '/' :: withoutEnding ".git".toList last <+: strip (· == '/') path := by
        rw [hpath]
        exact (List.prefix_append_right_inj user).2 ((List.prefix_cons_inj '/').2 hback)
      exact hfront.isInfix.trans (isInfix_strip _ path)
    · intro c hc
      obtain ⟨front, hfront, hsplit⟩ := hcommittish c hc
      refine ⟨?_, hpiece (by simp [hsplit])⟩
      rintro rfl
      have hend := eq_append_of_splitSlashes hsplit hfront (by simp)
      rw [List.intercalate_singleton] at hend
      exact absurd (last_strip hend) (by simp)

/-! ## Writing -/

/-- The name that GitLab gives the archive of a repository. -/
def archiveName : List Char := "archive.tar.gz".toList

theorem readSegments?_concat (h : host.Names user project) {last : List Char}
    (harchive : host = .gitLab → last ≠ archiveName) :
    host.readSegments? (splitSlashes user ++ [last]) = some (user, last, none) := by
  have hnesting := h.nesting
  by_cases hgitLab : host = .gitLab
  · subst hgitLab
    rw [if_pos rfl] at hnesting
    obtain ⟨first, groups, hsplit⟩ := List.exists_cons_of_ne_nil (splitWhere_ne_nil (· == '/') user)
    have hsplit : splitSlashes user = first :: groups := hsplit
    have huser : ['/'].intercalate (first :: groups) = user := by
      rw [← hsplit, intercalate_splitSlashes]
    have hlast : (first :: (groups ++ [last])).getLast? = some last := by
      rw [← List.cons_append]
      exact List.getLast?_concat
    have hfront : (first :: (groups ++ [last])).dropLast = first :: groups := by
      rw [← List.cons_append]
      exact List.dropLast_concat
    rw [hsplit, List.tail_cons] at hnesting
    have hname : last ≠ "archive.tar.gz".toList := harchive rfl
    simpa [readSegments?, hsplit, hnesting, hlast, hfront, huser] using hname
  · rw [if_neg hgitLab] at hnesting
    rw [splitSlashes_of_not_mem hnesting]
    cases host with
    | gitLab => exact absurd rfl hgitLab
    | gitHub | bitbucket | sourceHut => rfl

theorem readSegments?_archive (user : List Char) :
    gitLab.readSegments? (splitSlashes user ++ [archiveName]) = none := by
  have hlength : 1 < (splitSlashes user ++ [archiveName]).length := by
    rw [List.length_append, List.length_singleton]
    exact Nat.lt_add_of_pos_left (List.length_pos_iff.2 (splitWhere_ne_nil _ user))
  have hlast :
      ((splitSlashes user ++ [archiveName]).getLast? == some "archive.tar.gz".toList) = true := by
    rw [List.getLast?_concat]
    exact beq_self_eq_true _
  rw [readSegments?, decide_eq_true hlength, hlast, Bool.true_and, Bool.or_true, if_pos rfl]

/-- **A path of an owner and a last piece is read as them**, without one `.git` at the end. It is not
    read if that is all of the last piece, or if the host keeps the path for itself. -/
theorem readPath?_of_names (h : host.Names user project) :
    host.readPath? (user ++ '/' :: project) =
      if (host = .gitLab ∧ project = archiveName) ∨ project = ".git".toList then none
      else some (user, withoutEnding ".git".toList project, none) := by
  obtain ⟨first, rest, rfl⟩ := List.exists_cons_of_ne_nil h.user_ne_nil
  obtain ⟨front, d, rfl⟩ : ∃ front d, project = front ++ [d] :=
    ⟨_, _, (List.dropLast_append_getLast h.project_ne_nil).symm⟩
  have hfirst : (first == '/') = false := by
    simpa using h.user_head
  have hd : (d == '/') = false :=
    beq_eq_false_of_not_mem h.project_slash d List.mem_concat_self
  have hstrip : strip (· == '/') (first :: rest ++ '/' :: (front ++ [d])) =
      first :: rest ++ '/' :: (front ++ [d]) := by
    have hend : first :: rest ++ '/' :: (front ++ [d]) = first :: rest ++ '/' :: front ++ [d] := by
      simp
    exact strip_eq_self rfl hfirst hend hd
  rw [readPath?, hstrip, splitSlashes_append, splitSlashes_of_not_mem h.project_slash]
  by_cases harchive : host = .gitLab ∧ front ++ [d] = archiveName
  · obtain ⟨rfl, hname⟩ := harchive
    rw [if_pos (Or.inl ⟨rfl, hname⟩), hname, readSegments?_archive]
    rfl
  · rw [readSegments?_concat h fun hgitLab hname => harchive ⟨hgitLab, hname⟩]
    simp only [Option.bind_eq_bind, Option.bind_some, List.isEmpty_cons, Bool.false_or,
      List.isEmpty_iff, withoutEnding_eq_nil_iff h.project_ne_nil, harchive, false_or]

theorem Names.append (h : host.Names user project) {ending : List Char} (hslash : '/' ∉ ending) :
    host.Names user (project ++ ending) where
  user_ne_nil := h.user_ne_nil
  user_head := h.user_head
  nesting := h.nesting
  project_ne_nil := List.append_ne_nil_of_left_ne_nil h.project_ne_nil ending
  project_slash := by simp [h.project_slash, hslash]

/-- **The path that is written from owner and project is read as them.** The `.git` that is written
    is the one that is taken off, so a project that ends with another one keeps it. -/
theorem readPath?_written (h : host.Names user project) :
    host.readPath? (user ++ '/' :: (project ++ ".git".toList)) = some (user, project, none) := by
  have harchive : project ++ ".git".toList ≠ archiveName := by
    intro heq
    have hend : ".git".toList <:+ archiveName := ⟨project, heq⟩
    exact absurd hend (by decide)
  have halone : project ++ ".git".toList ≠ ".git".toList :=
    fun heq => h.project_ne_nil (List.append_left_eq_self.1 heq)
  rw [readPath?_of_names (h.append (by decide)), if_neg (by simp only [harchive, halone, and_false,
    or_false, not_false_eq_true]), withoutEnding_append]

end GitHost

end DepSpec
