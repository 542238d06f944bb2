import DepSpec.Proofs.Repository.Paths

set_option autoImplicit false

/-! # Addresses of repositories

A repository that is read from any text can be written as a URL in three ways, and each of them is
read as the same repository (`Repository.addresses_name_the_same_repository`).

The path of a repository ends the text before the `#` (`Repository.exists_path`), in every form
that is read, so owner and project hold no `#`, and no line feed if the text holds none. That is
all that the URL reader asks of them. A URL begins with a domain that holds no slash, and so nothing
in owner or project can be taken for a user part, a port or another domain. -/

namespace DepSpec

open Text

namespace Repository

variable {r : Repository} {body path : List Char} {host : GitHost}

/-! ## The path ends the text -/

/-- The end of a text that is on one line, but perhaps for its first character. -/
structure IsPathOf (path cs : List Char) : Prop where
  suffix : path <:+ cs
  line : '\n' ∉ path.tail

theorem IsPathOf.trans {cs cs' : List Char} (h : IsPathOf path cs) (hsuffix : cs <:+ cs') :
    IsPathOf path cs' :=
  ⟨h.suffix.trans hsuffix, h.line⟩

theorem isPathOf_of_isPath {cs : List Char} (h : isPath path = true) (hsuffix : path <:+ cs) :
    IsPathOf path cs := by
  rw [isPath, isLine, Bool.and_eq_true, List.all_eq_true] at h
  refine ⟨hsuffix, fun hmem => ?_⟩
  exact absurd (h.2 '\n' (List.mem_of_mem_tail hmem)) (by decide)

theorem parts_of_cut? {sep : Char → Bool} {cs before after : List Char}
    (h : cut? sep cs = some (before, after)) : before <+: cs ∧ after <:+ cs := by
  obtain ⟨c, -, rfl, -⟩ := cut?_eq_some h
  exact ⟨List.prefix_append _ _, (List.suffix_cons c after).trans (List.suffix_append _ _)⟩

theorem suffix_of_after? {start cs rest : List Char} (h : after? start cs = some rest) :
    rest <:+ cs := by
  rw [after?_eq_some_iff.1 h]
  exact List.suffix_append _ _

theorem suffix_of_dropWhile {p : Char → Bool} {c : Char} {cs rest : List Char}
    (h : cs.dropWhile p = c :: rest) : rest <:+ cs :=
  (List.suffix_cons c rest).trans (h ▸ List.dropWhile_suffix p)

theorem isPathOf_of_isShorthand (h : isShorthand body = true) : IsPathOf body body := by
  refine ⟨List.suffix_rfl, fun hmem => ?_⟩
  unfold isShorthand at h
  split at h
  · rw [Bool.and_eq_true, List.all_eq_true] at h
    exact absurd (h.2 '\n' (List.mem_of_mem_tail hmem)) (by decide)
  · cases h

theorem isPathOf_of_readShortcut? (h : readShortcut? body = some (host, path)) :
    IsPathOf path body := by
  unfold readShortcut? at h
  obtain ⟨⟨name, path'⟩, hcut, h⟩ := Option.bind_eq_some_iff.1 h
  dsimp only at h
  split at h
  · cases h
  · next c rest =>
    split at h
    · next hline =>
      obtain ⟨host', -, heq⟩ := Option.map_eq_some_iff.1 h
      cases heq
      refine ⟨(parts_of_cut? hcut).2, fun hmem => ?_⟩
      rw [Bool.and_eq_true, isLine, List.all_eq_true] at hline
      exact absurd (hline.2 '\n' hmem) (by decide)
    · cases h

theorem isPathOf_of_readSecureCopy? (h : readSecureCopy? body = some (host, path)) :
    IsPathOf path body := by
  unfold readSecureCopy? at h
  obtain ⟨rest, hafter, h⟩ := Option.bind_eq_some_iff.1 h
  obtain ⟨⟨name, path'⟩, hcut, h⟩ := Option.bind_eq_some_iff.1 h
  dsimp only at h
  split at h
  · next hpath =>
    obtain ⟨host', -, heq⟩ := Option.map_eq_some_iff.1 h
    cases heq
    rw [Bool.and_eq_true] at hpath
    exact isPathOf_of_isPath hpath.2 ((parts_of_cut? hcut).2.trans (suffix_of_after? hafter))
  · cases h

theorem isPathOf_of_afterPort? {cs : List Char} (h : afterPort? cs = some path) :
    IsPathOf path cs := by
  unfold afterPort? at h
  split at h
  · cases h
  · split at h
    · next hdrop =>
      split at h
      · next hpath =>
        cases h
        exact isPathOf_of_isPath hpath (suffix_of_dropWhile hdrop)
      · cases h
    · next hdrop =>
      split at h
      · next hpath =>
        cases h
        exact isPathOf_of_isPath hpath (suffix_of_dropWhile hdrop)
      · cases h
    · cases h

theorem isPathOf_of_readDomain? {cs domain : List Char} (h : readDomain? cs = some (domain, path)) :
    IsPathOf path cs := by
  unfold readDomain? at h
  dsimp only at h
  split at h
  · cases h
  · split at h
    · next hdrop =>
      split at h
      · next hpath =>
        cases h
        exact isPathOf_of_isPath hpath (suffix_of_dropWhile hdrop)
      · cases h
    · next path' hdrop =>
      obtain ⟨path'', hpath, heq⟩ := Option.map_eq_some_iff.1 h
      cases heq
      simp only [Option.orElse_eq_orElse, Option.orElse_eq_or, Option.or_eq_some_iff] at hpath
      rcases hpath with hport | ⟨-, hplain⟩
      · exact (isPathOf_of_afterPort? hport).trans (suffix_of_dropWhile hdrop)
      · split at hplain
        · next hpath =>
          cases hplain
          exact isPathOf_of_isPath hpath (suffix_of_dropWhile hdrop)
        · cases hplain
    · cases h

theorem isPathOf_of_readAuthority? {cs domain : List Char}
    (h : readAuthority? cs = some (domain, path)) : IsPathOf path cs := by
  simp only [readAuthority?, Option.orElse_eq_orElse, Option.orElse_eq_or,
    Option.or_eq_some_iff] at h
  rcases h with huser | ⟨-, hplain⟩
  · obtain ⟨rest, hafter, hdomain⟩ := Option.bind_eq_some_iff.1 huser
    obtain ⟨⟨user, rest'⟩, hcut, hrest⟩ := Option.bind_eq_some_iff.1 hafter
    dsimp only at hrest
    split at hrest
    · cases hrest
      exact (isPathOf_of_readDomain? hdomain).trans (parts_of_cut? hcut).2
    · cases hrest
  · exact isPathOf_of_readDomain? hplain

theorem isPathOf_of_readUrl? {scheme : List Char} (h : readUrl? body = some (scheme, host, path)) :
    IsPathOf path body := by
  unfold readUrl? at h
  obtain ⟨⟨scheme', rest⟩, hcut, h⟩ := Option.bind_eq_some_iff.1 h
  obtain ⟨rest', hafter, h⟩ := Option.bind_eq_some_iff.1 h
  obtain ⟨⟨domain, path'⟩, hauthority, h⟩ := Option.bind_eq_some_iff.1 h
  dsimp only at h
  split at h
  · obtain ⟨host', -, heq⟩ := Option.map_eq_some_iff.1 h
    cases heq
    exact (isPathOf_of_readAuthority? hauthority).trans
      ((suffix_of_after? hafter).trans (parts_of_cut? hcut).2)
  · cases h

/-- **A repository is read off a path** that ends the text before the `#`. -/
theorem exists_path {cs : List Char} (h : ofChars? cs = some r) :
    ∃ host path form, ofPath? host path (splitCommittish cs).2 form = some r ∧
      IsPathOf path (splitCommittish cs).1 := by
  unfold ofChars? at h
  dsimp only at h
  split at h
  · next hshort => exact ⟨_, _, _, h, isPathOf_of_isShorthand hshort⟩
  · split at h
    · next hread => exact ⟨_, _, _, h, isPathOf_of_readShortcut? hread⟩
    · split at h
      · next hread => exact ⟨_, _, _, h, isPathOf_of_readSecureCopy? hread⟩
      · split at h
        · next hread => exact ⟨_, _, _, h, isPathOf_of_readUrl? hread⟩
        · cases h

/-! ## What is known of a repository that was read -/

/-- A repository that its path names, where no `#` cuts the path, no line ends behind its first
    character, and the committish can be told from none. -/
structure IsReadable (r : Repository) : Prop where
  names : r.host.Names r.user.toList r.project.toList
  path_hash : '#' ∉ r.path.toList
  path_line : '\n' ∉ r.path.toList.tail
  committish : r.committish ≠ some ""

theorem splitCommittish_spec (cs : List Char) :
    (splitCommittish cs).1 ⊆ cs ∧ '#' ∉ (splitCommittish cs).1 ∧
      (splitCommittish cs).2 ≠ some [] := by
  unfold splitCommittish
  split
  · next hcut =>
    refine ⟨List.Subset.refl _, ?_, nofun⟩
    intro hmem
    exact absurd (not_mem_of_cut?_eq_none hcut '#' hmem) (by decide)
  · next hcut =>
    refine ⟨(parts_of_cut? hcut).1.subset, ?_, nofun⟩
    intro hmem
    obtain ⟨-, -, -, hbefore⟩ := cut?_eq_some hcut
    exact absurd (hbefore '#' hmem) (by decide)
  · next hne hcut =>
    refine ⟨(parts_of_cut? hcut).1.subset, ?_, ?_⟩
    · intro hmem
      obtain ⟨-, -, -, hbefore⟩ := cut?_eq_some hcut
      exact absurd (hbefore '#' hmem) (by decide)
    · intro hnil
      exact hne (Option.some.inj hnil)

/-- What is written of a repository was read, but for the slash between owner and project. -/
theorem isReadable_of_parse? {spec : String} (h : parse? spec = some r) :
    r.IsReadable ∧ ∀ c ∈ r.path.toList, c = '/' ∨ c ∈ spec.toList := by
  obtain ⟨host, path, form, hread, hpath⟩ := exists_path h
  obtain ⟨⟨user, project, inPath⟩, hreadPath, heq⟩ := Option.bind_eq_some_iff.1 hread
  obtain ⟨hnames, hpart, hinPath⟩ := GitHost.names_of_readPath? hreadPath
  obtain ⟨hspec, hhash, hcommittish⟩ := splitCommittish_spec spec.toList
  cases heq
  have hwritten : (String.ofList user ++ "/" ++ String.ofList project).toList =
      user ++ '/' :: project := by simp
  have hmem {c : Char} (hc : c ∈ user ++ '/' :: project) : c ∈ (splitCommittish spec.toList).1 :=
    hpath.suffix.subset (hpart.subset hc)
  refine ⟨⟨?_, ?_, ?_, ?_⟩, fun c hc => Or.inr (hspec (hmem (hwritten ▸ hc)))⟩
  · simpa using hnames
  · exact fun hc => hhash (hmem (hwritten ▸ hc))
  · show '\n' ∉ (String.ofList user ++ "/" ++ String.ofList project).toList.tail
    rw [hwritten]
    exact fun hc => hpath.line (hpart.sublist.tail.subset hc)
  · intro hempty
    obtain ⟨c, hc, hnil⟩ := Option.map_eq_some_iff.1 hempty
    have hnil : c = [] := by simpa using congrArg String.toList hnil
    simp only [Option.orElse_eq_orElse, Option.orElse_eq_or, Option.or_eq_some_iff] at hc
    rcases hc with hc | ⟨-, hc⟩
    · exact hcommittish (hnil ▸ hc)
    · exact (hinPath c hc).1 hnil

/-! ## Reading an address -/

/-- The suffix is cut off again, and the committish found behind its `#`. -/
theorem splitCommittish_append {body : List Char} (hbody : '#' ∉ body)
    (hcommittish : r.committish ≠ some "") :
    splitCommittish (body ++ r.suffix.toList) = (body, r.committish.map String.toList) := by
  have hpiece := beq_eq_false_of_not_mem hbody
  unfold splitCommittish suffix
  cases hc : r.committish with
  | none => simp [cut?_of_not_mem hpiece]
  | some committish =>
    have hne : committish.toList ≠ [] := by
      intro hnil
      rw [String.toList_eq_nil_iff] at hnil
      exact hcommittish (hnil ▸ hc)
    have hcut : cut? (· == '#') (body ++ ("#" ++ committish).toList) =
        some (body, committish.toList) := by
      simpa using cut?_piece hpiece rfl committish.toList
    obtain ⟨c, rest, hlist⟩ := List.exists_cons_of_ne_nil hne
    dsimp only
    rw [hcut, Option.map_some, hlist]

/-- The path written from a repository is read as that repository. -/
theorem ofPath?_written (h : r.IsReadable) (form : RepositoryForm) :
    ofPath? r.host (r.path ++ ".git").toList (r.committish.map String.toList) form =
      some { r with form := form } := by
  have hpath : (r.path ++ ".git").toList =
      r.user.toList ++ '/' :: (r.project.toList ++ ".git".toList) := by
    simp [path]
  rw [ofPath?, hpath, GitHost.readPath?_written h.names]
  cases hc : r.committish with
  | none => simp
  | some committish => simp

theorem isShorthand_eq_false {body : List Char} (h : ':' ∈ body) : isShorthand body = false := by
  unfold isShorthand
  split
  · rw [Bool.and_eq_false_iff]
    right
    rw [List.all_eq_false]
    exact ⟨':', h, by decide⟩
  · rfl

/-- A user part holds no slash, so there is none once a slash stands before the first `@`. -/
theorem afterUser?_eq_none {front : List Char} (h : ∀ c ∈ front, (c == '@') = false)
    (rest : List Char) : afterUser? (front ++ '/' :: rest) = none := by
  have hfront : ∀ c ∈ front ++ ['/'], (c == '@') = false := by
    intro c hc
    rcases List.mem_append.1 hc with hc | hc
    · exact h c hc
    · rw [List.mem_singleton.1 hc]
      decide
  rw [afterUser?, List.append_cons, cut?_append hfront]
  cases cut? (· == '@') rest with
  | none => rfl
  | some cut =>
    dsimp only [Option.map_some, Option.bind_eq_bind, Option.bind_some]
    rw [if_neg]
    intro hcond
    rw [Bool.and_eq_true, List.all_eq_true] at hcond
    exact absurd (hcond.2 '/' (by simp)) (by decide)

theorem readDomain?_append {domain : List Char} (hne : domain ≠ [])
    (h : ∀ c ∈ domain, isDomainChar c = true) {path : List Char} (hpath : isPath path = true) :
    readDomain? (domain ++ '/' :: path) = some (domain, path) := by
  have htake : (domain ++ '/' :: path).takeWhile isDomainChar = domain := by
    rw [List.takeWhile_append_of_pos h, List.takeWhile_cons_of_neg (by decide), List.append_nil]
  have hdrop : (domain ++ '/' :: path).dropWhile isDomainChar = '/' :: path := by
    rw [List.dropWhile_append_of_pos h, List.dropWhile_cons_of_neg (by decide)]
  simp [readDomain?, htake, hdrop, hne, hpath]

/-- A user part, or none, in front of a domain. -/
theorem readAuthority?_append {login domain : List Char} (hlogin : login = [] ∨ login = "git@".toList)
    (hne : domain ≠ []) (h : ∀ c ∈ domain, isDomainChar c = true ∧ (c == '@') = false)
    {path : List Char} (hpath : isPath path = true) :
    readAuthority? (login ++ (domain ++ '/' :: path)) = some (domain, path) := by
  have hread := readDomain?_append hne (fun c hc => (h c hc).1) hpath
  rcases hlogin with rfl | rfl
  · simp [readAuthority?, afterUser?_eq_none (fun c hc => (h c hc).2), hread]
  · have hcut : cut? (· == '@') ("git".toList ++ '@' :: (domain ++ '/' :: path)) =
        some ("git".toList, domain ++ '/' :: path) :=
      cut?_piece (beq_eq_false_of_not_mem (by decide)) rfl _
    have huser : afterUser? ("git@".toList ++ (domain ++ '/' :: path)) =
        some (domain ++ '/' :: path) := by
      have hname : (!"git".toList.isEmpty &&
          "git".toList.all fun c => c != '/' && !isBlank c) = true := by decide
      rw [show "git@".toList = "git".toList ++ ['@'] by decide, List.append_assoc,
        List.singleton_append, afterUser?, hcut, Option.bind_eq_bind, Option.bind_some]
      dsimp only
      rw [if_pos hname]
    rw [readAuthority?, huser]
    simp [hread]

theorem ne_colon_of_mem_schemes {scheme : List Char} (h : scheme ∈ schemes) :
    ∀ c ∈ scheme, (c == ':') = false := by
  have hall : ∀ scheme ∈ schemes, ':' ∉ scheme := by decide
  exact beq_eq_false_of_not_mem (hall scheme h)

/-- A shortcut has no slash behind its colon. -/
theorem readShortcut?_url {scheme : List Char} (h : scheme ∈ schemes) (rest : List Char) :
    readShortcut? (scheme ++ ':' :: '/' :: rest) = none := by
  rw [readShortcut?, cut?_piece (ne_colon_of_mem_schemes h) rfl]
  simp

theorem readSecureCopy?_url {scheme : List Char} (h : scheme ∈ schemes) (rest : List Char) :
    readSecureCopy? (scheme ++ ':' :: rest) = none := by
  have hafter : after? "git@".toList (scheme ++ ':' :: rest) = none := by
    simp only [schemes, List.map_cons, List.map_nil, List.mem_cons, List.not_mem_nil, or_false]
      at h
    rcases h with rfl | rfl | rfl | rfl | rfl | rfl | rfl <;> simp [after?]
  rw [readSecureCopy?, hafter]
  rfl

theorem readUrl?_url {scheme login : List Char} (hscheme : scheme ∈ schemes)
    (hlogin : login = [] ∨ login = "git@".toList) (host : GitHost) {path : List Char}
    (hpath : isPath path = true) :
    readUrl? (scheme ++ ':' :: '/' :: '/' :: (login ++ (host.domain.toList ++ '/' :: path))) =
      some (scheme, host, path) := by
  have hknown : ∀ scheme ∈ schemes, schemes.any (matchesFolded · scheme) = true := by decide
  have hdomain : host.domain.toList ≠ [] ∧ host.domain.toList.all isDomainChar = true ∧
      '@' ∉ host.domain.toList ∧ GitHost.ofDomain? host.domain.toList = some host := by
    cases host <;> decide
  obtain ⟨hne, hall, huser, hhost⟩ := hdomain
  have hauthority := readAuthority?_append hlogin hne
    (fun c hc => ⟨List.all_eq_true.1 hall c hc, beq_eq_false_of_not_mem huser c hc⟩) hpath
  rw [readUrl?, cut?_piece (ne_colon_of_mem_schemes hscheme) rfl]
  simpa [after?, hauthority, hhost] using hknown scheme hscheme

/-! ## Addresses -/

/-- The URL of a repository behind its scheme and login. -/
def address (r : Repository) (front : String) : String :=
  front ++ r.host.domain ++ "/" ++ r.path ++ ".git" ++ r.suffix

/-- The part of the URL before the `#`. -/
theorem hash_not_mem_address (h : r.IsReadable) {scheme login : List Char}
    (hscheme : scheme ∈ schemes) (hlogin : login = [] ∨ login = "git@".toList) :
    '#' ∉ scheme ++ ':' :: '/' :: '/' :: (login ++
      (r.host.domain.toList ++ '/' :: (r.path ++ ".git").toList)) := by
  have hschemeHash : ∀ scheme ∈ schemes, '#' ∉ scheme := by decide
  have hloginHash : '#' ∉ login := by
    rcases hlogin with rfl | rfl <;> decide
  have hdomainHash : '#' ∉ r.host.domain.toList := by
    cases r.host <;> decide
  simp [hschemeHash scheme hscheme, hloginHash, hdomainHash, h.path_hash]

/-- A URL that is written from a repository is read as that repository, in the form of the
    scheme. -/
theorem parse?_address (h : r.IsReadable) (hline : '\n' ∉ r.path.toList) {front : String}
    {scheme login : List Char} (hfront : front.toList = scheme ++ ':' :: '/' :: '/' :: login)
    (hscheme : scheme ∈ schemes) (hlogin : login = [] ∨ login = "git@".toList) :
    parse? (r.address front) = some { r with form := formOfScheme scheme } := by
  have htext : (r.address front).toList = scheme ++ ':' :: '/' :: '/' :: (login ++
      (r.host.domain.toList ++ '/' :: (r.path ++ ".git").toList)) ++ r.suffix.toList := by
    have hslash : "/".toList = ['/'] := rfl
    simp only [address, String.toList_append, hfront, hslash, List.append_assoc, List.cons_append,
      List.nil_append]
  have hpath : isPath (r.path ++ ".git").toList = true := by
    simp only [isPath, isLine, String.toList_append, List.all_append, Bool.and_eq_true,
      List.all_eq_true, bne_iff_ne]
    exact ⟨by simp, fun c hc => ne_of_mem_of_not_mem hc hline,
      fun c hc => ne_of_mem_of_not_mem hc (by decide)⟩
  rw [parse?, htext, ofChars?,
    splitCommittish_append (hash_not_mem_address h hscheme hlogin) h.committish]
  dsimp only
  rw [isShorthand_eq_false (by simp), if_neg Bool.false_ne_true, readShortcut?_url hscheme]
  dsimp only
  rw [readSecureCopy?_url hscheme]
  dsimp only
  rw [readUrl?_url hscheme hlogin r.host hpath]
  exact ofPath?_written h _

/-! ## The law -/

/-- **The addresses of a repository name the same repository.** Whatever text a repository is read
    from, as long as it is on one line: each of the three URLs that are written from it is read as a
    repository with the same host, owner, project and committish, in the form of that URL. -/
theorem addresses_name_the_same_repository {spec : String} {r : Repository}
    (hline : '\n' ∉ spec.toList) (h : parse? spec = some r) :
    parse? r.https = some { r with form := .https } ∧
      parse? r.ssh = some { r with form := .ssh } ∧
      parse? r.git = some { r with form := .git } := by
  obtain ⟨hreadable, hpath⟩ := isReadable_of_parse? h
  have hpathLine : '\n' ∉ r.path.toList := by
    intro hmem
    rcases hpath '\n' hmem with hslash | hspec
    · cases hslash
    · exact hline hspec
  have hhttps : "git+https://".toList = "git+https".toList ++ ':' :: '/' :: '/' :: [] := rfl
  have hssh : "git+ssh://git@".toList = "git+ssh".toList ++ ':' :: '/' :: '/' :: "git@".toList :=
    rfl
  have hgit : "git://".toList = "git".toList ++ ':' :: '/' :: '/' :: [] := rfl
  exact ⟨parse?_address hreadable hpathLine hhttps (by decide) (Or.inl rfl),
    parse?_address hreadable hpathLine hssh (by decide) (Or.inr rfl),
    parse?_address hreadable hpathLine hgit (by decide) (Or.inl rfl)⟩

/-- A path that is not on one line is no path of a URL. -/
example : (parse? "github:\nuser/project").map (fun r => parse? r.https) = some none := by
  decide +kernel

/-- A group with a space and an `@`, a project that ends with two `.git`, and a committish with a
    second `#`, behind a login and a port. -/
def crowdedAddress : String :=
  "SSH://me@WWW.GitLab.com:22/a @b/c:d//e.git.git/#x#y"

theorem crowdedAddress_is_written_back :
    ∃ r, Repository.parse? crowdedAddress = some r ∧ '\n' ∉ crowdedAddress.toList ∧
      r.ssh = "git+ssh://git@gitlab.com/a @b/c:d//e.git.git#x#y" ∧
      parse? r.https = some { r with form := .https } ∧ parse? r.ssh = some r ∧
      parse? r.git = some { r with form := .git } := by
  have hline : '\n' ∉ crowdedAddress.toList := by decide
  have hread : Repository.parse? crowdedAddress =
      some { host := .gitLab, user := "a @b/c:d/", project := "e.git", committish := some "x#y",
             form := .ssh } := by decide +kernel
  obtain ⟨hhttps, hssh, hgit⟩ := addresses_name_the_same_repository hline hread
  exact ⟨_, hread, hline, by decide +kernel, hhttps, hssh, hgit⟩

end Repository

end DepSpec
