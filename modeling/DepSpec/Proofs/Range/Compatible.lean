import DepSpec.Proofs.Range.Bounds
import DepSpec.Proofs.Range.OneGroup

set_option autoImplicit false

/-! # Carets and tildes

A caret leaves the numbers of a partial version alone up to the left-most one that is not zero, a
tilde the first two. Both stand for two bounds, the version itself and the next release behind the
numbers that stay (`Compatibility.clauses?_eq_map`), so that there is one proof for both of what is
admitted and of when there is no upper bound. -/

namespace DepSpec

open Text

theorem upToNonzero_isPrefix (ns : List UInt64) : upToNonzero ns <+: ns := by
  induction ns with
  | nil => exact List.prefix_rfl
  | cons n ns ih =>
    rw [upToNonzero]
    split
    · exact (List.cons_prefix_cons).2 ⟨rfl, ih⟩
    · exact ⟨ns, rfl⟩

theorem upToNonzero_singleton (n : UInt64) : upToNonzero [n] = [n] := by
  rw [upToNonzero]
  exact ite_self _

theorem upToNonzero_eq_nil_iff {ns : List UInt64} : upToNonzero ns = [] ↔ ns = [] := by
  cases ns with
  | nil => exact Iff.rfl
  | cons n ns =>
    rw [upToNonzero]
    split <;> simp

theorem eq_of_mem_between {bound lower upper : Version}
    (h : .compare .lt bound ∈ between lower upper) : bound = upper := by
  simpa [between, Clause.compare, Operator.symbol] using h

namespace Compatibility

variable {kind : Compatibility} {p : Partial}

theorem fixed_isPrefix (kind : Compatibility) (p : Partial) : kind.fixed p <+: p.start.numbers := by
  cases kind with
  | caret => exact (upToNonzero_isPrefix p.given).trans p.given_isPrefix
  | tilde => exact (List.take_prefix 2 p.given).trans p.given_isPrefix

theorem fixed_eq_nil_iff : kind.fixed p = [] ↔ p = .any := by
  cases kind <;> cases p <;> simp [fixed, Partial.given, upToNonzero_eq_nil_iff]

/-- The clauses that a partial version stands for. -/
def clauses? : Compatibility → Partial → Option (List Clause)
  | .caret, p => p.caret?
  | .tilde, p => p.tilde?

/-- The bounds are the version without its build and the next release. -/
theorem clauses?_eq_map (hp : p ≠ .any) :
    kind.clauses? p = (Version.next? (kind.fixed p)).map (between p.start.withoutBuild) := by
  cases p with
  | any => exact absurd rfl hp
  | major a =>
    cases kind with
    | tilde => rfl
    | caret =>
      rw [fixed, Partial.given, upToNonzero_singleton]
      rfl
  | minor a b =>
    cases kind with
    | tilde => rfl
    | caret =>
      rw [fixed, Partial.given, upToNonzero, upToNonzero_singleton, clauses?, Partial.caret?]
      split
      · next hzero =>
        rw [hzero]
        rfl
      · rfl
  | full v =>
    cases kind with
    | tilde => rfl
    | caret =>
      rw [fixed, Partial.given, upToNonzero, upToNonzero, upToNonzero_singleton, clauses?,
        Partial.caret?]
      by_cases hmajor : v.major = 0
      · by_cases hminor : v.minor = 0
        · rw [if_neg (not_not.2 hmajor), if_neg (not_not.2 hminor), if_pos hmajor, if_pos hminor,
            hmajor, hminor]
          rfl
        · rw [if_neg (not_not.2 hmajor), if_pos hminor, if_pos hmajor, if_neg hminor, hmajor]
          rfl
      · rw [if_pos hmajor, if_neg hmajor]
        rfl

theorem clauses?_eq_none (h : (kind.fixed p).getLast? = some maxWord) :
    kind.clauses? p = none := by
  have hany : p ≠ .any := by
    rintro rfl
    rw [fixed_eq_nil_iff.2 rfl] at h
    cases h
  rw [clauses?_eq_map hany, Version.next?_eq_none h]
  rfl

/-- **What the clauses admit.** -/
theorem exists_clauses? (h : (kind.fixed p).getLast? ≠ some maxWord) :
    ∃ group, kind.clauses? p = some group ∧ group ≠ [] ∧
      (∀ a b c, groupAdmits group (.release a b c) = true ↔
        (Version.release a b c).precedence p.start ≠ .lt ∧ kind.fixed p <+: [a, b, c]) ∧
      (∀ bound, .compare .lt bound ∈ group → p.start.precedence bound = .lt) ∧
      (p = .any → ∀ v, groupAdmits group v = true) := by
  by_cases hany : p = .any
  · subst hany
    refine ⟨[.any], by cases kind <;> rfl, List.cons_ne_nil _ _, fun a b c => ?_, ?_, fun _ _ => rfl⟩
    · have hfixed : kind.fixed .any = [] := fixed_eq_nil_iff.2 rfl
      rw [hfixed, Version.release_not_lt_iff]
      exact iff_of_true rfl ⟨Version.zero_le a b c, List.nil_prefix⟩
    · simp [Clause.compare, Clause.any]
  · have hne : kind.fixed p ≠ [] := mt fixed_eq_nil_iff.1 hany
    have hprefix := kind.fixed_isPrefix p
    obtain ⟨upper, hnext⟩ := Version.exists_next? hne hprefix.length_le h
    refine ⟨between p.start.withoutBuild upper, ?_, List.cons_ne_nil _ _, fun a b c => ?_, ?_,
      fun heq => absurd heq hany⟩
    · rw [clauses?_eq_map hany, hnext]
      rfl
    · rw [Version.release_not_lt_iff]
      exact groupAdmits_between_iff hnext hprefix
    · intro bound hmem
      rw [eq_of_mem_between hmem]
      exact Version.precedence_next? hnext hprefix

/-! ## Range texts -/

theorem isOperatorChar_of_mem_symbols {sign : String} (h : sign ∈ kind.symbols) :
    ∀ c ∈ sign.toList, isOperatorChar c = true := by
  cases kind with
  | caret =>
    obtain rfl := List.mem_singleton.1 h
    exact List.all_eq_true.1 rfl
  | tilde => rcases List.mem_pair.1 h with rfl | rfl <;> exact List.all_eq_true.1 rfl

theorem groupClauses?_symbol {sign : String} (hsign : sign ∈ kind.symbols) {cs : List Char}
    (hcs : p.Spells cs) :
    IsGroupText (sign.toList ++ cs) ∧ groupClauses? (sign.toList ++ cs) = kind.clauses? p := by
  have hgt : '>' ∉ cs := fun hmem => absurd (hcs.chars '>' hmem) (by decide)
  obtain ⟨t, ht, hvalue⟩ := hcs.ofChars?
  have hread : Term.read? (sign.toList ++ cs) = some (kind.term t) := by
    rw [Term.read?_compatible hsign hgt, ht]
    rfl
  have hclauses : (kind.term t).clauses? = kind.clauses? p := by
    cases kind <;>
    · show t.value?.bind _ = _
      rw [hvalue]
      rfl
  rw [← hclauses]
  exact groupClauses?_sign (isOperatorChar_of_mem_symbols hsign) hcs hread

end Compatibility

namespace Capabilities

/-- **Carets and tildes mean what they say.** A release is admitted when it is not below the version and
    agrees with the numbers that are fixed. The range is refused where the last of these is the
    largest word; in any other one, the upper bound is above the version. -/
theorem npm_parseRange_compatible {kind : Compatibility} {sign text : String} {p : Partial}
    (hsign : sign ∈ kind.symbols) (htext : p.Spells text.toList) :
    ((kind.fixed p).getLast? = some maxWord →
      ∃ refusal, npm.parseRange (sign ++ text) = .error refusal ∧
        refusal.code = "EINVALIDRANGE") ∧
    ((kind.fixed p).getLast? ≠ some maxWord →
      ∃ group, npm.parseRange (sign ++ text) = .ok [group] ∧
        (∀ a b c, groupAdmits group (.release a b c) = true ↔
          (Version.release a b c).precedence p.start ≠ .lt ∧ kind.fixed p <+: [a, b, c]) ∧
        (∀ bound, .compare .lt bound ∈ group → p.start.precedence bound = .lt) ∧
        (p = .any → ∀ v, groupAdmits group v = true)) := by
  have htoList : (sign ++ text).toList = sign.toList ++ text.toList := String.toList_append
  obtain ⟨hgroupText, hclauses⟩ := kind.groupClauses?_symbol hsign htext
  rw [← htoList] at hgroupText hclauses
  refine ⟨fun hlast => ?_, fun hlast => ?_⟩
  · rw [Compatibility.clauses?_eq_none hlast] at hclauses
    exact npm_parseRange_refused hgroupText hclauses
  · obtain ⟨group, hgroup, hne, hmeaning⟩ := Compatibility.exists_clauses? hlast
    exact ⟨group, npm_parseRange_of_group hgroupText (hclauses.trans hgroup) hne, hmeaning⟩

/-- A caret in front of a prerelease leaves the numbers up to the minor one alone; a tilde in front of
    the largest minor number has no upper bound. -/
theorem caret_leaves_the_minor_number_alone :
    (∃ group, npm.parseRange "^=v0.2.3-rc.1" = .ok [group] ∧
      ∀ a b c, groupAdmits group (.release a b c) = true ↔
        (Version.release a b c).precedence
          { major := 0, minor := 2, patch := 3, prerelease := [.alphanumeric "rc", .numeric 1] } ≠ .lt ∧
        [0, 2] <+: [a, b, c]) ∧
      ∃ refusal, npm.parseRange "~>1.18446744073709551615.*" = .error refusal ∧
        refusal.code = "EINVALIDRANGE" := by
  have hcaret : Partial.Spells "=v0.2.3-rc.1".toList
      (.full { major := 0, minor := 2, patch := 3,
               prerelease := [.alphanumeric "rc", .numeric 1] }) :=
    ⟨['=', 'v'], "0.2.3-rc.1".toList, rfl, by simp,
      Partial.spellsParts_iff.2 ⟨_, rfl, rfl⟩⟩
  have htilde : Partial.Spells "1.18446744073709551615.*".toList (.minor 1 maxWord) :=
    ⟨[], "1.18446744073709551615.*".toList, rfl, nofun, Partial.spellsParts_iff.2 ⟨_, rfl, rfl⟩⟩
  obtain ⟨group, hgroup, hadmits, -⟩ :=
    (@npm_parseRange_compatible .caret "^" "=v0.2.3-rc.1" _ (by decide) hcaret).2 (by decide)
  exact ⟨⟨group, hgroup, hadmits⟩,
    (@npm_parseRange_compatible .tilde "~>" "1.18446744073709551615.*" _ (by decide) htilde).1 rfl⟩

end Capabilities

end DepSpec
