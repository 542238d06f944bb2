import DepSpec.Proofs.Text.Pieces
import DepSpec.Text.Letter
import DepSpec.Text.Utf8

set_option autoImplicit false

/-! # Letter case

What the comparisons that ignore letter case find: a front that folds to the pattern
(`afterFolded?_eq_some_iff`), or an ending. An ending is looked for in the text behind any character
that does not occur in it (`endsFolded_append`). -/

namespace DepSpec.Text

/-! ## Small letters -/

theorem isUpper_iff {c : Char} : c.isUpper = true ↔ c.val ≥ 'A'.val ∧ c.val ≤ 'Z'.val :=
  decide_eq_true_iff

/-- The character 32 places on from a capital is a small letter. -/
theorem isLower_toLower_of_isUpper {c : Char} (h : c.isUpper = true) : c.toLower.isLower = true := by
  have hcapital := isUpper_iff.1 h
  have hsmall : ('a'.val ≤ c.val + 32 && c.val + 32 ≤ 'z'.val) = true := by
    simp [UInt32.le_iff_toNat_le] at hcapital ⊢
    omega
  unfold Char.toLower
  rw [dif_pos hcapital]
  exact hsmall

theorem toLower_of_not_isUpper {c : Char} (h : c.isUpper = false) : c.toLower = c := by
  unfold Char.toLower
  rw [dif_neg]
  intro hcapital
  rw [isUpper_iff.2 hcapital] at h
  cases h

/-- Letters have a small letter, other characters have none. -/
theorem isLower_toLower (c : Char) : c.toLower.isLower = c.isAlpha := by
  unfold Char.isAlpha
  cases hupper : c.isUpper with
  | true => rw [isLower_toLower_of_isUpper hupper, Bool.true_or]
  | false => rw [toLower_of_not_isUpper hupper, Bool.false_or]

theorem toNat_lt_of_isLower {c : Char} (h : c.isLower = true) : c.toNat < 0x80 := by
  unfold Char.isLower at h
  rw [Bool.and_eq_true, decide_eq_true_eq, decide_eq_true_eq] at h
  exact Nat.lt_of_le_of_lt h.2 (by decide)

/-! ## Folding -/

/-- Folding goes beyond small letters only for characters outside ASCII. -/
theorem foldCase_of_toLower {c : Char} (h : c.toLower.toNat < 0x80) : foldCase c = c.toLower := by
  unfold foldCase
  split
  · next hc =>
    rw [beq_iff_eq.1 hc] at h
    exact absurd h (by decide)
  · split
    · next hc =>
      rw [beq_iff_eq.1 hc] at h
      exact absurd h (by decide)
    · rfl

/-- Folding leads to small letters only. -/
theorem foldCase_eq_self {c : Char} (h : (foldCase c).isLower = false) : foldCase c = c := by
  unfold foldCase at h ⊢
  split at h
  · cases h
  · split at h
    · cases h
    · next hlong hkelvin =>
      rw [if_neg hlong, if_neg hkelvin] at *
      cases hupper : c.isUpper with
      | true =>
        rw [isLower_toLower_of_isUpper hupper] at h
        cases h
      | false => exact toLower_of_not_isUpper hupper

/-- Text that is small letters of ASCII once its capitals are made small. -/
theorem map_foldCase_of_lowerAscii {cs pattern : List Char} (h : lowerAscii cs = pattern)
    (hpattern : (pattern.all fun c => c.toNat < 0x80) = true) : cs.map foldCase = pattern := by
  rw [← h]
  refine List.map_congr_left fun c hc => foldCase_of_toLower ?_
  have hlower : c.toLower ∈ pattern := h ▸ List.mem_map_of_mem hc
  simpa using List.all_eq_true.1 hpattern _ hlower

/-- Only `s` and `k` are what characters outside ASCII fold to. -/
theorem lowerAscii_of_map_foldCase {cs pattern : List Char} (h : cs.map foldCase = pattern)
    (hs : 's' ∉ pattern) (hk : 'k' ∉ pattern) : lowerAscii cs = pattern := by
  rw [← h]
  refine List.map_congr_left fun c hc => ?_
  have hfold : foldCase c ∈ pattern := h ▸ List.mem_map_of_mem hc
  unfold foldCase at hfold ⊢
  split at hfold
  · exact absurd hfold hs
  · split at hfold
    · exact absurd hfold hk
    · next hlong hkelvin => rw [if_neg hlong, if_neg hkelvin]

/-- Making capitals small leads from ASCII to ASCII only. -/
theorem utf8Size_of_toLower {c : Char} (h : c.toLower.toNat < 0x80) : c.utf8Size = 1 := by
  rw [Char.utf8Size_eq_one_iff, UInt32.le_iff_toNat_le]
  cases hupper : c.isUpper with
  | true => exact Nat.le_trans (UInt32.le_iff_toNat_le.1 (isUpper_iff.1 hupper).2) (by decide)
  | false =>
    rw [toLower_of_not_isUpper hupper] at h
    exact Nat.le_of_lt_succ h

/-- Text that is ASCII once its capitals are made small has as many bytes as characters. -/
theorem byteLength_of_lowerAscii {cs : List Char} (h : ∀ c ∈ lowerAscii cs, c.toNat < 0x80) :
    byteLength cs = cs.length := by
  induction cs with
  | nil => rfl
  | cons c cs ih =>
    obtain ⟨hc, hcs⟩ := List.forall_mem_cons.1 h
    rw [byteLength, utf8Size_of_toLower hc, ih hcs, List.length_cons, Nat.add_comm]

/-- What follows `start` is what is left of the text behind a front that folds to it. -/
theorem afterFolded?_eq_some_iff {start cs rest : List Char} :
    afterFolded? start cs = some rest ↔
      ∃ front, cs = front ++ rest ∧ front.map foldCase = start := by
  unfold afterFolded?
  constructor
  · intro h
    split at h
    · next hmatch =>
      cases h
      exact ⟨cs.take start.length, (List.take_append_drop _ _).symm, beq_iff_eq.1 hmatch⟩
    · cases h
  · rintro ⟨front, rfl, rfl⟩
    simp [matchesFolded]

/-- A front that is spelt as it is folded is one in any letter case. -/
theorem afterFolded?_of_after? {start cs rest : List Char} (hstart : start.map foldCase = start)
    (h : after? start cs = some rest) : afterFolded? start cs = some rest :=
  afterFolded?_eq_some_iff.2 ⟨start, after?_eq_some_iff.1 h, hstart⟩

/-- Folded text is what folded text is left of. -/
theorem map_foldCase_afterFolded? (start cs : List Char) :
    (afterFolded? start cs).map (·.map foldCase) = after? start (cs.map foldCase) := by
  have hmatch : matchesFolded start (cs.take start.length) = start.isPrefixOf (cs.map foldCase) := by
    rw [Bool.eq_iff_iff, matchesFolded, beq_iff_eq, List.isPrefixOf_iff_prefix,
      List.prefix_iff_eq_take, List.map_take]
    exact eq_comm
  rw [afterFolded?, after?, hmatch]
  split
  · rw [Option.map_some, List.map_drop]
  · rfl

/-- A front that ends with a character that is no letter is the text up to the first such one. -/
theorem afterFolded?_append_cons {name front : List Char} {d : Char}
    (hd : (foldCase d).isLower = false) (hname : d ∉ name) (hfront : d ∉ front) (cs : List Char) :
    afterFolded? (name ++ [d]) (front ++ d :: cs) =
      if front.map foldCase = name then some cs else none := by
  have hself : foldCase d = d := foldCase_eq_self hd
  split
  · next hmatch => exact afterFolded?_eq_some_iff.2 ⟨front ++ [d], by simp, by simp [hmatch, hself]⟩
  · next hmatch =>
    rw [Option.eq_none_iff_forall_ne_some]
    intro rest hrest
    obtain ⟨start, hsplit, hstart⟩ := afterFolded?_eq_some_iff.1 hrest
    obtain ⟨start, last, rfl, rfl, hlast⟩ := List.map_eq_append_iff.1 hstart
    obtain ⟨c, rfl, hc⟩ := List.map_eq_singleton_iff.1 hlast
    obtain rfl : c = d := by
      rw [← hc]
      exact (foldCase_eq_self (by rw [hc, ← hself, hd])).symm
    have hcut := cut?_piece (beq_eq_false_of_not_mem hfront) (beq_self_eq_true c) cs
    have hstart : c ∉ start := fun hmem => hname (hself ▸ List.mem_map_of_mem hmem)
    rw [hsplit, List.append_assoc, List.singleton_append,
      cut?_piece (beq_eq_false_of_not_mem hstart) (beq_self_eq_true c)] at hcut
    obtain ⟨rfl, -⟩ := Prod.mk.inj (Option.some.inj hcut)
    exact hmatch rfl

/-- A character of the pattern that is no letter has to be in the text. -/
theorem afterFolded?_eq_none {start cs : List Char} {d : Char} (hd : d ∈ start)
    (hlower : d.isLower = false) (h : d ∉ cs) : afterFolded? start cs = none := by
  rw [Option.eq_none_iff_forall_ne_some]
  intro rest hrest
  obtain ⟨front, rfl, rfl⟩ := afterFolded?_eq_some_iff.1 hrest
  obtain ⟨c, hc, rfl⟩ := List.mem_map.1 hd
  rw [foldCase_eq_self hlower] at h
  exact h (List.mem_append_left rest hc)

/-- A character that does not fold into `start` is not taken off with it. -/
theorem mem_of_afterFolded? {start cs rest : List Char} (h : afterFolded? start cs = some rest)
    {c : Char} (hc : c ∈ cs) (hstart : foldCase c ∉ start) : c ∈ rest := by
  obtain ⟨front, rfl, hfront⟩ := afterFolded?_eq_some_iff.1 h
  rcases List.mem_append.1 hc with hc | hc
  · exact absurd (hfront ▸ List.mem_map_of_mem hc) hstart
  · exact hc

theorem endsFolded_append {ending : List Char} (front : List Char) {c : Char} (cs : List Char)
    (hc : foldCase c ∉ ending) : endsFolded ending (front ++ c :: cs) = endsFolded ending cs := by
  rw [endsFolded, endsFolded, List.map_append, List.map_cons, Bool.eq_iff_iff,
    List.isSuffixOf_iff_suffix, List.isSuffixOf_iff_suffix]
  constructor
  · intro h
    rcases List.suffix_or_suffix_of_suffix h (List.suffix_append _ _) with hshort | hlong
    · rcases List.suffix_cons_iff.1 hshort with rfl | hin
      · exact absurd List.mem_cons_self hc
      · exact hin
    · exact absurd (hlong.subset List.mem_cons_self) hc
  · intro h
    exact (h.trans (List.suffix_cons _ _)).trans (List.suffix_append _ _)

end DepSpec.Text
