import DepSpec.Proofs.Resolution.Answers

set_option autoImplicit false

/-! # URLs to clone from

A repository on no known host is cloned from its URL, without the committish and without the `git+`
that only marks it as a repository. What is left begins with a plain transport
(`Resolution.cloneUrl_cases`). The scheme is recognised in any letter case, but the mark is
taken off in small letters only, so that the URL to fetch from is the plain one exactly if the mark is
in small letters or there is none (`Resolution.clone_url_is_plain_iff`). -/

namespace DepSpec

open Text

namespace Resolution

/-! ## What a clone URL should be -/

/-- The protocols that carry a repository. -/
def transports : List (List Char) :=
  ["git", "http", "https", "rsync", "ftp", "file", "ssh"].map String.toList

/-- Whether a URL begins with a transport, in whichever letter case. -/
def HasTransport (url : List Char) : Prop :=
  ∃ scheme rest, url = scheme ++ ':' :: rest ∧ lowerAscii scheme ∈ transports

/-- The text in front of the committish. -/
def withoutCommittish (spec : List Char) : List Char := spec.takeWhile (· != '#')

/-- The URL without the committish, and without a `git+` in front, in whichever letter case. -/
def bareUrl (spec : List Char) : List Char :=
  (afterFolded? "git+".toList (withoutCommittish spec)).getD (withoutCommittish spec)

/-- A `git+` in front, if there is one in any letter case, is in small letters. -/
def MarkIsSmall (spec : List Char) : Prop :=
  ∀ rest, afterFolded? "git+".toList spec = some rest → spec = "git+".toList ++ rest

/-! ## Schemes of repositories -/

theorem splitCommittish_fst (spec : List Char) :
    (Repository.splitCommittish spec).1 = withoutCommittish spec := by
  unfold Repository.splitCommittish withoutCommittish
  cases hcut : cut? (· == '#') spec with
  | none =>
    refine (List.takeWhile_eq_self_iff.2 fun c hc => ?_).symm
    rw [bne, not_mem_of_cut?_eq_none hcut c hc]
    rfl
  | some parts =>
    obtain ⟨body, committish⟩ := parts
    obtain ⟨hash, hhash, rfl, hbody⟩ := cut?_eq_some hcut
    obtain rfl := beq_iff_eq.1 hhash
    have htake : (body ++ '#' :: committish).takeWhile (· != '#') = body := by
      rw [List.takeWhile_append_of_pos fun c hc => by rw [bne, hbody c hc]; rfl]
      simp
    rw [htake]
    cases committish <;> rfl

theorem withoutCommittish_append {scheme : List Char} (h : '#' ∉ scheme) (rest : List Char) :
    withoutCommittish (scheme ++ ':' :: rest) = scheme ++ ':' :: withoutCommittish rest := by
  have hscheme : ∀ c ∈ scheme, (c != '#') = true := fun c hc => by
    rw [bne, beq_eq_false_of_not_mem h c hc]
    rfl
  rw [withoutCommittish, List.takeWhile_append_of_pos hscheme,
    List.takeWhile_cons_of_pos (by decide), withoutCommittish]

/-- The protocols are `git`, and the transports but that one behind a `git+`. -/
theorem gitProtocols_eq : gitProtocols =
    ("git".toList :: transports.tail.map ("git+".toList ++ ·)).map (· ++ [':']) := rfl

/-- The scheme of a repository is `git`, or a transport behind a `git+`. -/
theorem exists_scheme {spec : List Char} (h : protocolOf spec ∈ gitProtocols) :
    ∃ scheme rest, spec = scheme ++ ':' :: rest ∧ ':' ∉ scheme ∧ '#' ∉ scheme ∧
      (lowerAscii scheme = "git".toList ∨
        ∃ mark transport, scheme = mark ++ transport ∧ lowerAscii mark = "git+".toList ∧
          lowerAscii transport ∈ transports) := by
  unfold protocolOf at h
  split at h
  · exact absurd h (by decide)
  · next scheme rest hcut =>
    obtain ⟨colon, hcolon, rfl, hscheme⟩ := cut?_eq_some hcut
    obtain rfl := beq_iff_eq.1 hcolon
    rw [gitProtocols_eq] at h
    obtain ⟨lower, hmem, heq⟩ := List.mem_map.1 h
    obtain rfl := List.append_cancel_right heq
    refine ⟨scheme, rest, rfl, fun hmem => absurd (hscheme ':' hmem) (by decide), fun hhash => ?_,
      ?_⟩
    · have hnone : ∀ lower ∈ "git".toList :: transports.tail.map ("git+".toList ++ ·),
          '#' ∉ lower := by decide
      exact hnone _ hmem (List.mem_map_of_mem hhash)
    · rcases List.mem_cons.1 hmem with hgit | hmark
      · exact Or.inl hgit
      · obtain ⟨transport, htransport, hscheme⟩ := List.mem_map.1 hmark
        obtain ⟨mark, rest, rfl, hmark, rfl⟩ := List.map_eq_append_iff.1 hscheme.symm
        exact Or.inr ⟨mark, rest, rfl, hmark, List.mem_of_mem_tail htransport⟩

/-! ## The mark in front -/

/-- A scheme begins with no mark if it is `git` alone. -/
theorem afterFolded?_of_git {scheme : List Char} (h : lowerAscii scheme = "git".toList)
    (rest : List Char) : afterFolded? "git+".toList (scheme ++ ':' :: rest) = none := by
  rw [Option.eq_none_iff_forall_ne_some]
  intro rest' hafter
  obtain ⟨front, hsplit, hfront⟩ := afterFolded?_eq_some_iff.1 hafter
  have hlength : (scheme ++ [':']).length = front.length := by
    have hscheme : scheme.length = 3 := by simpa [lowerAscii] using congrArg List.length h
    have hmark : front.length = 4 := by simpa using congrArg List.length hfront
    simp [hscheme, hmark]
  rw [List.append_cons] at hsplit
  obtain ⟨rfl, -⟩ := List.append_inj hsplit hlength
  rw [List.map_append] at hfront
  have hlast := congrArg List.getLast? hfront
  simp at hlast
  revert hlast
  decide

/-- A mark in front is found, whichever its letter case. -/
theorem afterFolded?_of_mark {mark : List Char} (h : lowerAscii mark = "git+".toList)
    (rest : List Char) : afterFolded? "git+".toList (mark ++ rest) = some rest :=
  afterFolded?_eq_some_iff.2 ⟨mark, rfl, map_foldCase_of_lowerAscii h (by decide)⟩

/-- The resolver finds no mark where there is none. -/
theorem after?_of_git {scheme : List Char} (h : lowerAscii scheme = "git".toList)
    (rest : List Char) : after? "git+".toList (scheme ++ ':' :: rest) = none := by
  rw [Option.eq_none_iff_forall_ne_some]
  intro rest' hafter
  have hfolded := afterFolded?_of_after? rfl hafter
  rw [afterFolded?_of_git h] at hfolded
  cases hfolded

/-- It finds none where the mark has capitals either. -/
theorem after?_of_mark {mark : List Char} (h : lowerAscii mark = "git+".toList)
    (hcapitals : mark ≠ "git+".toList) (rest : List Char) :
    after? "git+".toList (mark ++ rest) = none := by
  rw [Option.eq_none_iff_forall_ne_some]
  intro rest' hafter
  have hfolded := afterFolded?_of_after? rfl hafter
  rw [afterFolded?_of_mark h] at hfolded
  cases hfolded
  exact hcapitals (List.append_cancel_right (after?_eq_some_iff.1 hafter))

/-- No transport has a mark. -/
theorem not_hasTransport {mark transport : List Char} (hmark : lowerAscii mark = "git+".toList)
    (hcolon : ':' ∉ mark ++ transport) (rest : List Char) :
    ¬ HasTransport (mark ++ transport ++ ':' :: rest) := by
  rintro ⟨scheme, rest', hsplit, hscheme⟩
  have hnone : ∀ lower ∈ transports, ':' ∉ lower ∧ '+' ∉ lower := by decide
  have hcolon' : ':' ∉ scheme := fun hmem => (hnone _ hscheme).1 (List.mem_map_of_mem hmem)
  -- Both schemes end at the first colon.
  have hcut := cut?_piece (beq_eq_false_of_not_mem hcolon) (beq_self_eq_true ':') rest
  rw [hsplit, cut?_piece (beq_eq_false_of_not_mem hcolon') (beq_self_eq_true ':')] at hcut
  obtain ⟨rfl, -⟩ := Prod.mk.inj (Option.some.inj hcut)
  refine (hnone _ hscheme).2 ?_
  have hlower : lowerAscii (mark ++ transport) = "git+".toList ++ lowerAscii transport := by
    rw [← hmark]
    exact List.map_append
  rw [hlower]
  exact List.mem_append_left _ (by decide)

/-- **What becomes of the mark.** It is left where it is if it has capitals, and off otherwise; the
    URL without it begins with a transport. -/
theorem cloneUrl_cases {spec : List Char} (h : protocolOf spec ∈ gitProtocols) :
    HasTransport (bareUrl spec) ∧
      ((MarkIsSmall spec ∧ cloneUrl spec = bareUrl spec) ∨
        (¬ MarkIsSmall spec ∧ cloneUrl spec = withoutCommittish spec ∧
          ¬ HasTransport (withoutCommittish spec))) := by
  obtain ⟨scheme, rest, rfl, hcolon, hhash, hscheme⟩ := exists_scheme h
  rw [cloneUrl, splitCommittish_fst, bareUrl, withoutCommittish_append hhash]
  rcases hscheme with hgit | ⟨mark, transport, rfl, hmark, htransport⟩
  · rw [afterFolded?_of_git hgit, after?_of_git hgit]
    refine ⟨⟨scheme, _, rfl, hgit ▸ by decide⟩, Or.inl ⟨fun rest' hafter => ?_, rfl⟩⟩
    rw [afterFolded?_of_git hgit] at hafter
    cases hafter
  · have hplain := not_hasTransport hmark hcolon (withoutCommittish rest)
    rw [List.append_assoc] at hplain
    rw [MarkIsSmall, List.append_assoc, List.append_assoc, afterFolded?_of_mark hmark,
      afterFolded?_of_mark hmark, Option.getD_some]
    refine ⟨⟨transport, _, rfl, htransport⟩, ?_⟩
    by_cases hsmall : mark = "git+".toList
    · refine Or.inl ⟨?_, ?_⟩
      · rintro rest' ⟨⟩
        rw [hsmall]
      · rw [hsmall, after?_eq_some_iff.2 rfl, Option.getD_some]
    · refine Or.inr ⟨fun h => hsmall (List.append_cancel_right (h _ rfl)), ?_, hplain⟩
      rw [after?_of_mark hmark hsmall, Option.getD_none]

/-! ## The law -/

/-- **A repository is cloned from its plain URL if the mark is in small letters, and only then.** What
    is saved is the specifier as it is. The URL to fetch from is the one without committish and mark,
    and begins with a transport, unless the mark has capitals: then it is the whole text in front of
    the committish. -/
theorem clone_url_is_plain_iff {spec : List Char} {r : Resolution} (h : ofUrl spec = .ok r)
    (hkind : r.kind = "git") :
    r.save = some (String.ofList spec) ∧ HasTransport (bareUrl spec) ∧
      ∃ url, r.fetch = some (String.ofList url) ∧
        (url = bareUrl spec ↔ MarkIsSmall spec) ∧ (HasTransport url ↔ MarkIsSmall spec) ∧
        (url ≠ bareUrl spec → url = withoutCommittish spec) := by
  rcases ofUrl_cases h with ⟨hprotocol, rfl⟩ | ⟨-, rfl⟩
  · obtain ⟨hbare, ⟨hsmall, hurl⟩ | ⟨hlarge, hurl, hplain⟩⟩ := cloneUrl_cases hprotocol
    · refine ⟨rfl, hbare, cloneUrl spec, rfl, ?_⟩
      rw [hurl]
      exact ⟨iff_of_true rfl hsmall, iff_of_true hbare hsmall, fun hne => absurd rfl hne⟩
    · refine ⟨rfl, hbare, cloneUrl spec, rfl, ?_⟩
      rw [hurl]
      have hne : withoutCommittish spec ≠ bareUrl spec := fun heq => hplain (heq ▸ hbare)
      exact ⟨iff_of_false hne hlarge, iff_of_false hplain hlarge, fun _ => rfl⟩
  · exact absurd (show "remote" = "git" from hkind) (by decide)

/-- The transport may have capitals, and the committish a mark and a `#` of its own. -/
theorem capital_transport_is_plain :
    ∃ r, ofUrl "git+FILE:a#git+b#c".toList = .ok r ∧ r.kind = "git" ∧
      r.save = some "git+FILE:a#git+b#c" ∧ r.fetch = some "FILE:a" ∧
      HasTransport "FILE:a".toList := by
  obtain ⟨hsave, hbare, url, hfetch, hurl, -⟩ :=
    @clone_url_is_plain_iff "git+FILE:a#git+b#c".toList _ rfl rfl
  have hsmall : MarkIsSmall "git+FILE:a#git+b#c".toList := by
    rintro rest ⟨⟩
    rfl
  rw [hurl.2 hsmall] at hfetch
  exact ⟨_, rfl, rfl, hsave, hfetch, hbare⟩

/-- Capitals: the mark stays in the URL to fetch from. -/
theorem capital_mark_is_fetched :
    ∃ r, resolve none "GIT+https://example.com/x.git#main" = .ok r ∧ r.kind = "git" ∧
      r.fetch = some "GIT+https://example.com/x.git" ∧
      bareUrl "GIT+https://example.com/x.git#main".toList = "https://example.com/x.git".toList ∧
      ¬ HasTransport "GIT+https://example.com/x.git".toList := by
  have hr : resolve none "GIT+https://example.com/x.git#main" =
      (ofUrl "GIT+https://example.com/x.git#main".toList).map (·.withName none) := by
    rw [resolve, resolveChars_eq]
    rfl
  exact ⟨_, hr, rfl, rfl, rfl, @not_hasTransport "GIT+".toList "https".toList rfl (by decide) _⟩

end Resolution

end DepSpec
