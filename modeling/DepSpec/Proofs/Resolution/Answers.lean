import DepSpec.Proofs.Results
import DepSpec.Proofs.Text.LetterCase
import DepSpec.Specifier.WellFormed

set_option autoImplicit false

/-! # How the resolver answers

What each step of the resolver can give, said once. `resolveChars_eq` is the equation of the whole:
the name is checked, an alias is resolved by way of its argument, and anything else goes along the
tests. `ofPlain_cases` says what comes out of the tests, `ofUrl_cases` and `ofRegistry_cases` what
the last two of them give, and `resolveChars_cases` what an answer looks like. No later proof needs
to follow the tests again. -/

namespace DepSpec

open Text

namespace Resolution

/-! ## The tests -/

/-- The answer, given for the package of this name. -/
def withName (r : Resolution) (name : Option String) : Resolution := { r with name := name }

theorem withName_withName (r : Resolution) (name name' : Option String) :
    (r.withName name).withName name' = r.withName name' := rfl

/-- A version, a range or a tag is asked for by a text that was found to be one. -/
theorem ofRegistry_cases {name : Option String} {spec : List Char} {r : Resolution}
    (h : ofRegistry name spec = .ok r) :
    ∃ kind text, r = { kind := kind, raw := String.ofList spec, fetch := some text } ∧
      ((kind = "version" ∧ ∃ v, Version.parseLoose? text = some v) ∨
        (kind = "range" ∧ ∃ range, ParsedRange.parse? text = some range) ∨
        (kind = "tag" ∧ IsTag text)) := by
  unfold ofRegistry at h
  dsimp only at h
  generalize (if spec.isEmpty then defaultTag.toList else trim spec) = fetch at h
  split at h
  · next hversion =>
    cases h
    exact ⟨_, _, rfl, Or.inl ⟨rfl, Option.isSome_iff_exists.1 hversion⟩⟩
  · next hversion =>
    split at h
    · next hrange =>
      cases h
      exact ⟨_, _, rfl, Or.inr (Or.inl ⟨rfl, Option.isSome_iff_exists.1 hrange⟩)⟩
    · next hrange =>
      split at h
      · next hsafe =>
        cases h
        have hrange' := Option.not_isSome_iff_eq_none.1 hrange
        refine ⟨_, _, rfl, Or.inr (Or.inr ⟨rfl, ?_, ?_, ?_, hrange'⟩)⟩
        · -- The empty text is a range.
          intro hempty
          rw [hempty] at hrange'
          exact absurd hrange' (by decide +kernel)
        · simpa using hsafe
        · exact Option.not_isSome_iff_eq_none.1 hversion
      · cases h

/-- A URL is cloned from or downloaded from. -/
theorem ofUrl_cases {spec : List Char} {r : Resolution} (h : ofUrl spec = .ok r) :
    (protocolOf spec ∈ gitProtocols ∧
        r = { kind := "git", raw := String.ofList spec, save := some (String.ofList spec),
              fetch := some (String.ofList (cloneUrl spec)) }) ∨
      (protocolOf spec ∈ webProtocols ∧
        r = { kind := "remote", raw := String.ofList spec, save := some (String.ofList spec),
              fetch := some (String.ofList spec) }) := by
  unfold ofUrl at h
  dsimp only at h
  split at h
  · next hgit =>
    cases h
    exact Or.inl ⟨by simpa using hgit, rfl⟩
  · split at h
    · next hweb =>
      cases h
      exact Or.inr ⟨by simpa using hweb, rfl⟩
    · cases h

/-- What the tests lead to: a path, a repository, a URL or the registry. -/
theorem ofPlain_cases {name : Option String} {spec : List Char} {r : Resolution}
    (h : ofPlain name spec = .ok r) :
    r = ofFile spec ∨ (∃ repo, r = ofRepository spec repo) ∨
      (isUrl spec = true ∧ ofUrl spec = .ok r) ∨ ofRegistry name spec = .ok r := by
  unfold ofPlain at h
  split at h
  · cases h
    exact Or.inl rfl
  · split at h
    · next repo hrepo =>
      cases h
      exact Or.inr (Or.inl ⟨repo, rfl⟩)
    · split at h
      · next hurl => exact Or.inr (Or.inr (Or.inl ⟨hurl, h⟩))
      · split at h
        · cases h
          exact Or.inl rfl
        · exact Or.inr (Or.inr (Or.inr h))

/-- The tests name no package, and keep the specifier as it was given. -/
theorem name_and_raw_of_ofPlain {name : Option String} {spec : List Char} {r : Resolution}
    (h : ofPlain name spec = .ok r) : r.name = none ∧ r.raw = String.ofList spec := by
  rcases ofPlain_cases h with rfl | ⟨repo, rfl⟩ | ⟨-, hurl⟩ | hregistry
  · exact ⟨rfl, rfl⟩
  · exact ⟨rfl, rfl⟩
  · rcases ofUrl_cases hurl with ⟨-, rfl⟩ | ⟨-, rfl⟩ <;> exact ⟨rfl, rfl⟩
  · obtain ⟨kind, text, rfl, -⟩ := ofRegistry_cases hregistry
    exact ⟨rfl, rfl⟩

/-- What is no alias is told as none. -/
theorem kind_ne_alias_of_ofPlain {name : Option String} {spec : List Char} {r : Resolution}
    (h : ofPlain name spec = .ok r) : r.kind ≠ "alias" := by
  rcases ofPlain_cases h with rfl | ⟨repo, rfl⟩ | ⟨-, hurl⟩ | hregistry
  · simp only [ofFile]
    split <;> simp
  · simp [ofRepository]
  · rcases ofUrl_cases hurl with ⟨-, rfl⟩ | ⟨-, rfl⟩ <;> simp
  · obtain ⟨kind, text, rfl, ⟨rfl, -⟩ | ⟨rfl, -⟩ | ⟨rfl, -⟩⟩ := ofRegistry_cases hregistry <;> simp

/-- The package name only shows in the message about a tag. -/
theorem ofPlain_congr (name name' : Option String) (spec : List Char) :
    ofPlain name spec = ofPlain name' spec ∨
      ∃ tag text text', ofPlain name spec = .error (.tagName tag text) ∧
        ofPlain name' spec = .error (.tagName tag text') := by
  unfold ofPlain
  split
  · exact Or.inl rfl
  · split
    · exact Or.inl rfl
    · split
      · exact Or.inl rfl
      · split
        · exact Or.inl rfl
        · unfold ofRegistry
          dsimp only
          generalize (if spec.isEmpty then defaultTag.toList else trim spec) = fetch
          split
          · exact Or.inl rfl
          · split
            · exact Or.inl rfl
            · split
              · exact Or.inl rfl
              · exact Or.inr ⟨_, _, _, rfl, rfl⟩

/-! ## Drive letters -/

/-- A text that begins with no sign of a path is one only if it begins with a drive letter. -/
theorem isLocalPath_cons {c : Char} (hc : c ∉ ['.', '/', '\\', '~']) (cs : List Char) :
    isLocalPath (c :: cs) = (cs.head? == some ':' && c.isAlpha) := by
  simp only [List.mem_cons, List.not_mem_nil, or_false, not_or] at hc
  obtain ⟨hdot, hslash, hback, htilde⟩ := hc
  unfold isLocalPath
  split
  · next heq => exact absurd (List.cons.inj heq).1 hdot
  · next heq => exact absurd (List.cons.inj heq).1 hslash
  · next heq => exact absurd (List.cons.inj heq).1 hback
  · next heq => exact absurd (List.cons.inj heq).1 htilde
  · next heq =>
    obtain ⟨rfl, rfl⟩ := List.cons.inj heq
    rfl
  · next hcolon =>
    cases cs with
    | nil => rfl
    | cons d cs =>
      have hd : (some d == some ':') = false :=
        beq_eq_false_iff_ne.2 fun heq => hcolon c cs (Option.some.inj heq ▸ rfl)
      rw [List.head?_cons, hd, Bool.false_and]

/-! ## Schemes -/

section Schemes

variable {scheme : List Char} (h : ∀ c ∈ scheme, (c == ':') = false) (rest : List Char)
include h

/-- Whether a text begins with a scheme is seen of what folds before its first colon. -/
theorem isUrl_of_scheme :
    isUrl (scheme ++ ':' :: rest) =
      let folded := scheme.map foldCase
      let transport := (after? "git+".toList folded).getD folded
      !transport.isEmpty && transport.all Char.isLower := by
  have htransport : ((afterFolded? "git+".toList scheme).getD scheme).map foldCase =
      (after? "git+".toList (scheme.map foldCase)).getD (scheme.map foldCase) := by
    rw [← map_foldCase_afterFolded?]
    cases afterFolded? "git+".toList scheme <;> rfl
  rw [isUrl, cut?_piece h rfl]
  dsimp only
  rw [← htransport, List.isEmpty_map, List.all_map]
  rfl

theorem protocolOf_of_scheme : protocolOf (scheme ++ ':' :: rest) = lowerAscii scheme ++ [':'] := by
  rw [protocolOf, cut?_piece h rfl]

end Schemes

/-! ## Aliases -/

/-- An alias points at a version, a range or a tag. -/
theorem ofAlias_cases {spec : List Char} {target r : Resolution} (h : ofAlias spec target = .ok r) :
    target.kind ∈ ["tag", "version", "range"] ∧
      r = { kind := "alias", raw := String.ofList spec, target := some target } := by
  unfold ofAlias at h
  dsimp only at h
  split at h
  · cases h
  · next hnested =>
    split at h
    · next hregistry =>
      cases h
      refine ⟨?_, rfl⟩
      simp only [isRegistry, List.contains_eq_mem, decide_eq_true_eq, List.mem_cons,
        List.not_mem_nil, or_false] at hregistry
      simpa [hnested] using hregistry
    · cases h

theorem ofAlias_of_mem {spec : List Char} {target : Resolution}
    (h : target.kind ∈ ["tag", "version", "range"]) :
    ofAlias spec target =
      .ok { kind := "alias", raw := String.ofList spec, target := some target } := by
  simp only [List.mem_cons, List.not_mem_nil, or_false] at h
  rcases h with hkind | hkind | hkind <;> simp [ofAlias, isRegistry, hkind]

theorem ofAlias_of_not_mem (spec : List Char) {target : Resolution}
    (h : target.kind ∉ ["tag", "version", "range"]) :
    ∃ fault, ofAlias spec target = .error (.alias fault (String.ofList spec)) := by
  by_cases hnested : target.kind = "alias"
  · refine ⟨.nested, ?_⟩
    simp only [ofAlias, if_pos hnested]
  · have hregistry : target.isRegistry = false := by
      simp only [List.mem_cons, List.not_mem_nil, or_false, not_or] at h
      obtain ⟨htag, hversion, hrange⟩ := h
      simp [isRegistry, htag, hversion, hrange, hnested]
    refine ⟨.notRegistry, ?_⟩
    simp only [ofAlias, if_neg hnested, hregistry, if_neg Bool.false_ne_true]

end Resolution

/-! ## The resolver -/

open Resolution

theorem afterAlias?_secureCopyUrl (address : List Char) :
    afterAlias? (secureCopyUrl address) = none := rfl

/-- An address is resolved as a URL, without a name. -/
theorem resolveChars_secureCopyUrl (address : List Char) :
    resolveChars none (secureCopyUrl address) = ofPlain none (secureCopyUrl address) := by
  rw [resolveChars]
  split
  · next halias =>
    cases h : ofPlain none (secureCopyUrl address) with
    | error e => rfl
    | ok r =>
      have hname := (name_and_raw_of_ofPlain h).1
      cases r
      dsimp only at hname
      subst hname
      rfl
  · next arg halias =>
    rw [afterAlias?_secureCopyUrl] at halias
    cases halias

theorem resolveArgument_ofList (arg : List Char) :
    resolveArgument (String.ofList arg) =
      match Argument.ofChars arg with
      | .bare spec => resolveChars none spec
      | .named name spec => resolveChars (some (String.ofList name)) spec
      | .secureCopy address => ofPlain none (secureCopyUrl address) := by
  rw [resolveArgument, String.toList_ofList]
  split <;> simp [*, resolveChars_secureCopyUrl]

/-- **An alias is resolved by way of its argument**, anything else along the tests. -/
theorem resolveChars_eq (name : Option String) (spec : List Char) :
    resolveChars name spec = checkName name >>= fun _ =>
      (match afterAlias? spec with
        | none => ofPlain name spec
        | some arg => resolveArgument (String.ofList arg) >>= ofAlias spec) >>= fun r =>
      .ok (r.withName name) := by
  rw [resolveChars]
  congr 1
  funext _
  split
  · next halias =>
    rw [halias]
    rfl
  · next arg halias =>
    rw [halias]
    dsimp only
    rw [resolveArgument_ofList]
    split
    · next hargument =>
      rw [hargument]
      exact (bind_assoc ..).symm
    · next hargument =>
      rw [hargument]
      exact (bind_assoc ..).symm
    · next hargument =>
      rw [hargument]
      exact (bind_assoc ..).symm

/-- What an answer looks like. Only the argument of an alias is resolved again. -/
theorem resolveChars_cases {name : Option String} {spec : List Char} {r : Resolution}
    (h : resolveChars name spec = .ok r) :
    checkName name = .ok () ∧
      ((afterAlias? spec = none ∧ ∃ q, ofPlain name spec = .ok q ∧ r = q.withName name) ∨
        ∃ arg target, afterAlias? spec = some arg ∧
          resolveArgument (String.ofList arg) = .ok target ∧
          target.kind ∈ ["tag", "version", "range"] ∧
          r = { kind := "alias", raw := String.ofList spec, name := name,
                target := some target }) := by
  rw [resolveChars_eq] at h
  obtain ⟨_, hname, h⟩ := bind_eq_ok_iff.1 h
  obtain ⟨q, hq, h⟩ := bind_eq_ok_iff.1 h
  cases h
  refine ⟨hname, ?_⟩
  split at hq
  · next halias => exact Or.inl ⟨halias, q, hq, rfl⟩
  · next arg halias =>
    obtain ⟨target, htarget, hq⟩ := bind_eq_ok_iff.1 hq
    obtain ⟨hkind, rfl⟩ := ofAlias_cases hq
    exact Or.inr ⟨arg, target, halias, htarget, hkind, rfl⟩

theorem resolveChars_of_alias {name : Option String} {spec arg : List Char}
    (hname : checkName name = .ok ()) (halias : afterAlias? spec = some arg) :
    resolveChars name spec = resolveArgument (String.ofList arg) >>= fun target =>
      ofAlias spec target >>= fun r => .ok (r.withName name) := by
  rw [resolveChars_eq, hname, halias]
  show (resolveArgument (String.ofList arg) >>= ofAlias spec) >>= _ = _
  rw [bind_assoc]

/-- For two packages a specifier is resolved alike: the answers differ in the name only, and the
    errors have one code. -/
theorem resolveChars_congr {name name' : Option String} (hname : checkName name = .ok ())
    (hname' : checkName name' = .ok ()) (spec : List Char) :
    (∃ r, resolveChars name spec = .ok r ∧ resolveChars name' spec = .ok (r.withName name')) ∨
      ∃ e e', resolveChars name spec = .error e ∧ resolveChars name' spec = .error e' ∧
        e.code = e'.code := by
  cases halias : afterAlias? spec with
  | none =>
    have hplain {n : Option String} (hn : checkName n = .ok ()) :
        resolveChars n spec = ofPlain n spec >>= fun r => .ok (r.withName n) := by
      rw [resolveChars_eq, hn, halias]
      rfl
    rw [hplain hname, hplain hname']
    rcases ofPlain_congr name name' spec with heq | ⟨tag, text, text', he, he'⟩
    · rw [heq]
      cases ofPlain name' spec with
      | ok r => exact Or.inl ⟨_, rfl, rfl⟩
      | error e => exact Or.inr ⟨_, _, rfl, rfl, rfl⟩
    · rw [he, he']
      exact Or.inr ⟨_, _, rfl, rfl, rfl⟩
  | some arg =>
    rw [resolveChars_of_alias hname halias, resolveChars_of_alias hname' halias]
    cases resolveArgument (String.ofList arg) with
    | error e => exact Or.inr ⟨_, _, rfl, rfl, rfl⟩
    | ok target =>
      show (∃ r, ofAlias spec target >>= _ = .ok r ∧ ofAlias spec target >>= _ = _) ∨
        ∃ e e', ofAlias spec target >>= _ = .error e ∧ ofAlias spec target >>= _ = _ ∧ _
      cases ofAlias spec target with
      | ok r => exact Or.inl ⟨_, rfl, rfl⟩
      | error e => exact Or.inr ⟨_, _, rfl, rfl, rfl⟩

/-- An argument is resolved as some specifier of some package, which the answer names. -/
theorem resolveArgument_cases {arg : String} {r : Resolution} (h : resolveArgument arg = .ok r) :
    ∃ name spec, resolveChars name spec = .ok r := by
  unfold resolveArgument at h
  split at h
  · exact ⟨_, _, h⟩
  · exact ⟨_, _, h⟩
  · exact ⟨_, _, h⟩

/-- A file or directory comes from a local path. -/
theorem ofFile_of_resolveChars {name : Option String} {spec : List Char} {r : Resolution}
    (h : resolveChars name spec = .ok r) (hkind : r.kind = "file" ∨ r.kind = "directory") :
    r = (ofFile spec).withName name := by
  rcases resolveChars_cases h with ⟨-, ⟨-, q, hq, rfl⟩ | ⟨arg, target, -, -, -, rfl⟩⟩
  · rcases ofPlain_cases hq with rfl | ⟨repo, rfl⟩ | ⟨-, hurl⟩ | hregistry
    · rfl
    · simp [withName, ofRepository] at hkind
    · rcases ofUrl_cases hurl with ⟨-, rfl⟩ | ⟨-, rfl⟩ <;> simp [withName] at hkind
    · obtain ⟨kind, text, rfl, ⟨rfl, -⟩ | ⟨rfl, -⟩ | ⟨rfl, -⟩⟩ := ofRegistry_cases hregistry <;>
        simp [withName] at hkind
  · simp at hkind

/-- A version, a range or a tag comes from the registry. -/
theorem ofRegistry_of_resolveChars {name : Option String} {spec : List Char} {r : Resolution}
    (h : resolveChars name spec = .ok r) (hkind : r.kind ∈ ["tag", "version", "range"]) :
    ∃ q, ofRegistry name spec = .ok q ∧ r = q.withName name := by
  rcases resolveChars_cases h with ⟨-, ⟨-, q, hq, rfl⟩ | ⟨arg, target, -, -, -, rfl⟩⟩
  · refine ⟨q, ?_, rfl⟩
    rcases ofPlain_cases hq with rfl | ⟨repo, rfl⟩ | ⟨-, hurl⟩ | hregistry
    · simp only [withName, ofFile] at hkind
      split at hkind <;> simp at hkind
    · simp [withName, ofRepository] at hkind
    · rcases ofUrl_cases hurl with ⟨-, rfl⟩ | ⟨-, rfl⟩ <;> simp [withName] at hkind
    · exact hregistry
  · simp at hkind

end DepSpec
