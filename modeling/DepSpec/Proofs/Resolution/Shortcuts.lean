import DepSpec.Proofs.Repository.Addresses
import DepSpec.Proofs.Resolution.Answers

set_option autoImplicit false

/-! # Shortcuts of repositories

A repository is written in short as in `github:user/project#committish`, and that is what is saved of
one that was given in this form. Every form but this one puts a `.git` behind the project, which the
reader takes off. So a shortcut is read as the repository itself only if its path means what it says
(`Repository.IsPlain`): a project that still ends with a `.git` of its own loses it, and GitLab keeps
one name for archives. The main statement says that nothing else goes wrong
(`Repository.shortcut_is_stable_iff`): a plain repository is read from its shortcut, and saved
unchanged if it is resolved from it. -/

namespace DepSpec

open Text

namespace Repository

variable {r : Repository} {spec : String}

/-! ## Reading a shortcut -/

/-- A repository with a project that the reader takes as it is written. -/
structure IsPlain (r : Repository) : Prop where
  ending : ¬ ".git".toList <:+ r.project.toList
  archive : ¬ (r.host = .gitLab ∧ r.project.toList = GitHost.archiveName)

/-- The repository that stands behind the path, where the `.git` at its end is no part of the
    project. -/
def withoutGit (r : Repository) : Repository :=
  { r with project := String.ofList (withoutEnding ".git".toList r.project.toList),
           form := .shortcut }

theorem withoutGit_eq_iff : r.withoutGit = { r with form := .shortcut } ↔
    ¬ ".git".toList <:+ r.project.toList := by
  have hproject : String.ofList (withoutEnding ".git".toList r.project.toList) = r.project ↔
      withoutEnding ".git".toList r.project.toList = r.project.toList := by
    rw [← String.toList_inj, String.toList_ofList]
  rw [← withoutEnding_eq_self_iff (by decide), withoutGit, Repository.mk.injEq, hproject]
  simp only [true_and, and_true]

/-- Nothing but the project tells a shortcut from the one that it is read as. -/
theorem shortcut_withoutGit_eq_iff : r.withoutGit.shortcut = r.shortcut ↔
    ¬ ".git".toList <:+ r.project.toList := by
  rw [← withoutEnding_eq_self_iff (by decide), ← String.toList_inj]
  simp [shortcut, path, suffix, withoutGit]

theorem toList_shortcut (r : Repository) :
    r.shortcut.toList = r.host.shortcut.toList ++ ':' :: r.path.toList ++ r.suffix.toList := by
  simp [shortcut]

theorem colon_not_mem_shortcut (host : GitHost) : ∀ c ∈ host.shortcut.toList, (c == ':') = false :=
  beq_eq_false_of_not_mem (by cases host <;> decide)

/-- The path begins with the owner, and so with no slash. -/
theorem IsReadable.path_eq_cons (h : r.IsReadable) :
    ∃ c rest, r.path.toList = c :: rest ∧ c ≠ '/' ∧ isLine rest = true := by
  have hline := h.path_line
  obtain ⟨c, rest, huser⟩ := List.exists_cons_of_ne_nil h.names.user_ne_nil
  have hpath : r.path.toList = c :: (rest ++ '/' :: r.project.toList) := by
    simp [path, huser]
  refine ⟨c, _, hpath, ?_, ?_⟩
  · rintro rfl
    exact h.names.user_head (by rw [huser, List.head?_cons])
  · rw [hpath, List.tail_cons] at hline
    exact List.all_eq_true.2 fun d hd => bne_iff_ne.2 (ne_of_mem_of_not_mem hd hline)

theorem IsReadable.readShortcut? (h : r.IsReadable) :
    readShortcut? (r.host.shortcut.toList ++ ':' :: r.path.toList) =
      some (r.host, r.path.toList) := by
  obtain ⟨c, rest, hpath, hslash, hline⟩ := h.path_eq_cons
  have hname : r.host.shortcut.toList.isEmpty = false ∧
      r.host.shortcut.toList.all Char.isAlpha = true ∧
      GitHost.ofShortcut? r.host.shortcut.toList = some r.host := by
    cases r.host <;> decide
  obtain ⟨hne, halpha, hhost⟩ := hname
  rw [Repository.readShortcut?, cut?_piece (colon_not_mem_shortcut r.host) rfl, hpath]
  dsimp only [Option.bind_eq_bind, Option.bind_some]
  rw [hne, halpha, hline, bne_iff_ne.2 hslash, hhost]
  rfl

/-- A shortcut is read as its path, behind the name of the host. -/
theorem IsReadable.parse?_shortcut (h : r.IsReadable) :
    parse? r.shortcut =
      ofPath? r.host r.path.toList (r.committish.map String.toList) .shortcut := by
  have hhash : '#' ∉ r.host.shortcut.toList ++ ':' :: r.path.toList := by
    have hhost : '#' ∉ r.host.shortcut.toList := by
      cases r.host <;> decide
    simp [hhost, h.path_hash]
  rw [parse?, toList_shortcut, ofChars?, splitCommittish_append hhash h.committish]
  dsimp only
  rw [isShorthand_eq_false (by simp), if_neg Bool.false_ne_true, h.readShortcut?]

/-- The path is read as the repository without the `.git` at its end, if anything is left then and
    the host does not keep the path for itself. -/
theorem IsReadable.parse?_shortcut_eq (h : r.IsReadable) :
    parse? r.shortcut =
      if (r.host = .gitLab ∧ r.project.toList = GitHost.archiveName) ∨
        r.project.toList = ".git".toList then none
      else some r.withoutGit := by
  have hpath : r.path.toList = r.user.toList ++ '/' :: r.project.toList := by simp [path]
  have hcommittish : (r.committish.map String.toList).map String.ofList = r.committish := by
    cases r.committish with
    | none => rfl
    | some committish => rw [Option.map_some, Option.map_some, String.ofList_toList]
  rw [h.parse?_shortcut, ofPath?, hpath, GitHost.readPath?_of_names h.names]
  split
  · rfl
  · simp only [Option.bind_eq_bind, Option.bind_some, Option.orElse_eq_orElse, Option.orElse_eq_or,
      Option.or_none, hcommittish, String.ofList_toList, withoutGit]

/-- A repository that is read from a shortcut is written as that shortcut if it is plain, and only
    then. -/
theorem IsReadable.isPlain_iff (h : r.IsReadable) :
    r.IsPlain ↔ ∃ r', parse? r.shortcut = some r' ∧ r'.text = r.shortcut := by
  rw [h.parse?_shortcut_eq]
  constructor
  · rintro ⟨hending, harchive⟩
    have halone : r.project.toList ≠ ".git".toList := fun heq => hending (heq ▸ List.suffix_rfl)
    rw [if_neg (by simp only [harchive, halone, or_false, not_false_eq_true])]
    exact ⟨r.withoutGit, rfl, shortcut_withoutGit_eq_iff.2 hending⟩
  · rintro ⟨r', hread, htext⟩
    split at hread
    · cases hread
    · next hnot =>
      cases hread
      exact ⟨shortcut_withoutGit_eq_iff.1 htext, fun harchive => hnot (Or.inl harchive)⟩

theorem IsReadable.parse?_shortcut_iff (h : r.IsReadable) :
    parse? r.shortcut = some { r with form := .shortcut } ↔ r.IsPlain := by
  constructor
  · exact fun hread => h.isPlain_iff.2 ⟨_, hread, rfl⟩
  · intro hplain
    obtain ⟨r', hread, -⟩ := h.isPlain_iff.1 hplain
    rw [h.parse?_shortcut_eq] at hread ⊢
    split at hread
    · cases hread
    · next hnot => rw [if_neg hnot, withoutGit_eq_iff.2 hplain.ending]

/-! ## Resolving a shortcut -/

open Resolution

theorem afterAlias?_shortcut (r : Repository) : afterAlias? r.shortcut.toList = none := by
  rw [toList_shortcut, List.append_assoc]
  cases r.host <;> rfl

/-- A shortcut is no path, and no URL that can be resolved. -/
theorem ofPlain_shortcut (name : Option String) (r : Repository) :
    ofPlain name r.shortcut.toList =
      match parse? r.shortcut with
      | some r' => .ok (ofRepository r.shortcut.toList r')
      | none => .error (.protocol (r.host.shortcut ++ ":") r.shortcut) := by
  have hlocal : (isLocalPath r.shortcut.toList || (afterFile? r.shortcut.toList).isSome) = false := by
    rw [toList_shortcut, List.append_assoc]
    cases r.host <;> rfl
  have hurl : isUrl r.shortcut.toList = true := by
    rw [toList_shortcut, List.append_assoc, List.cons_append,
      isUrl_of_scheme (colon_not_mem_shortcut r.host)]
    cases r.host <;> decide
  have hprotocol : protocolOf r.shortcut.toList = (r.host.shortcut ++ ":").toList := by
    rw [toList_shortcut, List.append_assoc, List.cons_append,
      protocolOf_of_scheme (colon_not_mem_shortcut r.host)]
    cases r.host <;> decide
  have hunknown : gitProtocols.contains (r.host.shortcut ++ ":").toList = false ∧
      webProtocols.contains (r.host.shortcut ++ ":").toList = false := by
    cases r.host <;> decide
  rw [ofPlain, hlocal, if_neg Bool.false_ne_true, parse?]
  cases ofChars? r.shortcut.toList with
  | some r' => rfl
  | none =>
    dsimp only
    rw [if_pos hurl, ofUrl, hprotocol, hunknown.1, hunknown.2, if_neg Bool.false_ne_true,
      if_neg Bool.false_ne_true, String.ofList_toList, String.ofList_toList]

/-- A shortcut that is resolved is saved as it is read. -/
theorem resolve_shortcut_eq_ok_iff {name : Option String} {q : Resolution} :
    resolve name r.shortcut = .ok q ↔ checkName name = .ok () ∧
      ∃ r', parse? r.shortcut = some r' ∧ q = (ofRepository r.shortcut.toList r').withName name := by
  rw [resolve, resolveChars_eq, afterAlias?_shortcut, ofPlain_shortcut]
  cases checkName name with
  | error e => simp [Bind.bind, Except.bind]
  | ok _ =>
    cases parse? r.shortcut <;> simp [Bind.bind, Except.bind, eq_comm]

/-- A text that is resolved as a repository is saved in the form of that repository, unless it is a
    URL of no known host. -/
theorem save_of_resolve {name : Option String} {q : Resolution} (h : parse? spec = some r)
    (hq : resolve name spec = .ok q) (hkind : q.kind = "git") : q.save = some r.text := by
  obtain ⟨-, ⟨-, q', hplain, rfl⟩ | ⟨arg, target, -, -, -, rfl⟩⟩ := resolveChars_cases hq
  · rw [ofPlain] at hplain
    split at hplain
    · cases hplain
      have hlocal : (ofFile spec.toList).kind = "git" := hkind
      rw [ofFile] at hlocal
      dsimp only at hlocal
      split at hlocal <;> exact absurd hlocal (by decide)
    · have hread : ofChars? spec.toList = some r := h
      rw [hread] at hplain
      cases hplain
      rfl
  · exact absurd (show "alias" = "git" from hkind) (by decide)

/-! ## The law -/

/-- **The shortcut of a plain repository is stable, and only that.** Whatever text a repository is
    read from, its shortcut is read as the same repository if its project does not end with `.git`
    and, on GitLab, is not called like an archive. In particular, what is saved of a repository that
    was given in short resolves to the same repository and is saved unchanged under these conditions,
    and only under these. -/
theorem shortcut_is_stable_iff {spec : String} {r : Repository} (h : parse? spec = some r) :
    (parse? r.shortcut = some { r with form := .shortcut } ↔ r.IsPlain) ∧
      ∀ name q, resolve name spec = .ok q → q.kind = "git" → r.form = .shortcut →
        q.save = some r.shortcut ∧
          ((∃ q', resolve name r.shortcut = .ok q' ∧ q'.kind = "git" ∧ q'.save = q.save) ↔
            r.IsPlain) := by
  obtain ⟨hreadable, -⟩ := isReadable_of_parse? h
  refine ⟨hreadable.parse?_shortcut_iff, fun name q hq hkind hform => ?_⟩
  have hname : checkName name = .ok () := (resolveChars_cases hq).1
  have hsave : q.save = some r.shortcut := by
    rw [save_of_resolve h hq hkind, text, hform]
  refine ⟨hsave, ?_⟩
  rw [hsave, hreadable.isPlain_iff]
  constructor
  · rintro ⟨q', hq', -, hsave'⟩
    obtain ⟨-, r', hread, rfl⟩ := resolve_shortcut_eq_ok_iff.1 hq'
    exact ⟨r', hread, Option.some.inj hsave'⟩
  · rintro ⟨r', hread, htext⟩
    exact ⟨_, resolve_shortcut_eq_ok_iff.2 ⟨hname, r', hread, rfl⟩, rfl, congrArg some htext⟩

/-- A group with a space and an empty subgroup, and a committish with a second `#`. -/
def nestedProject : Repository where
  host := .gitLab
  user := "a b/c/"
  project := "archive.tar.gz.d"
  committish := some "x#y.git"
  form := .shortcut

theorem nestedProject_is_stable :
    parse? "GitLab:a b/c//archive.tar.gz.d.git/#x#y.git" = some nestedProject ∧
      parse? nestedProject.shortcut = some nestedProject ∧
      ∃ q, resolve none nestedProject.shortcut = .ok q ∧ q.kind = "git" ∧
        q.save = some "gitlab:a b/c//archive.tar.gz.d#x#y.git" ∧
        ∃ q', resolve none nestedProject.shortcut = .ok q' ∧ q'.kind = "git" ∧
          q'.save = q.save := by
  have hread : parse? "GitLab:a b/c//archive.tar.gz.d.git/#x#y.git" = some nestedProject := by
    decide +kernel
  have hplain : nestedProject.IsPlain := ⟨by decide, by decide⟩
  obtain ⟨hparse, hsaved⟩ := shortcut_is_stable_iff hread
  have hagain : parse? nestedProject.shortcut = some nestedProject := hparse.2 hplain
  obtain ⟨q, hq, hkind, hsave⟩ : ∃ q, resolve none nestedProject.shortcut = .ok q ∧
      q.kind = "git" ∧ q.save = some nestedProject.shortcut :=
    ⟨_, resolve_shortcut_eq_ok_iff.2 ⟨rfl, _, hagain, rfl⟩, rfl, rfl⟩
  obtain ⟨-, hstable⟩ := (shortcut_is_stable_iff hagain).2 none q hq hkind rfl
  exact ⟨hread, hagain, q, hq, hkind, hsave, hstable.2 hplain⟩

/-- Three repositories that their shortcuts do not name: one loses a second `.git`, another has no
    other name, and the third is called like an archive. -/
theorem second_ending_is_lost :
    (∃ r, parse? "github:user/x.git.git" = some r ∧ r.shortcut = "github:user/x.git" ∧
        ∃ r', parse? r.shortcut = some r' ∧ r'.shortcut = "github:user/x") ∧
      (∃ r, parse? "github:user/.git.git" = some r ∧ parse? r.shortcut = none) ∧
      ∃ r, parse? "https://gitlab.com/user/archive.tar.gz.git" = some r ∧
        parse? r.shortcut = none := by
  refine ⟨⟨⟨.gitHub, "user", "x.git", none, .shortcut⟩, ?_, ?_,
      ⟨.gitHub, "user", "x", none, .shortcut⟩, ?_, ?_⟩,
    ⟨⟨.gitHub, "user", ".git", none, .shortcut⟩, ?_, ?_⟩,
    ⟨.gitLab, "user", "archive.tar.gz", none, .https⟩, ?_, ?_⟩ <;> decide +kernel

end Repository

end DepSpec
