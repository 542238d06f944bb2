set_option autoImplicit false

/-! # Decimal numerals

Writing and reading natural numbers in ASCII digits, and the reading of 64-bit words: a numeral
denotes a word when its value is below `2 ^ 64`, whatever zeros it leads with. Main statement:
`readWord?_writeWord`, every word is read back from its numeral. -/

namespace DepSpec.Text

/-! ## Natural numbers -/

/-- The numeral of a number: no leading zeros, `0` for zero. -/
def writeNat (n : Nat) : List Char := Nat.toDigits 10 n

theorem ne_of_isDigit {c d : Char} (hd : d.isDigit = true) (hc : c.isDigit = false) : d ≠ c := by
  rintro rfl
  rw [hd] at hc
  cases hc

theorem toNat_of_isDigit {c : Char} (h : c.isDigit = true) : 48 ≤ c.toNat ∧ c.toNat ≤ 57 := by
  simp only [Char.isDigit, Bool.and_eq_true, decide_eq_true_eq, ge_iff_le] at h
  exact h

/-- The value of a nonempty run of ASCII digits; anything else is no numeral. -/
def readNat? (cs : List Char) : Option Nat :=
  if !cs.isEmpty && cs.all Char.isDigit then some (Nat.ofDigitChars 10 cs 0) else none

theorem isDigit_of_mem_writeNat {n : Nat} {c : Char} (h : c ∈ writeNat n) : c.isDigit = true :=
  Nat.isDigit_of_mem_toDigits (by decide) (by decide) h

theorem writeNat_ne_nil (n : Nat) : writeNat n ≠ [] := by
  simp [writeNat, Nat.toDigits_ne_nil]

theorem readNat?_writeNat (n : Nat) : readNat? (writeNat n) = some n := by
  have hall : (writeNat n).all Char.isDigit = true :=
    List.all_eq_true.2 fun _ h => isDigit_of_mem_writeNat h
  have hne : (writeNat n).isEmpty = false := by
    simp [writeNat_ne_nil]
  rw [readNat?, hall, hne, writeNat, Nat.ofDigitChars_ten_toDigits]
  rfl

/-- Only the numeral of zero begins with a zero. -/
theorem eq_nil_of_writeNat_eq_zero_cons {n : Nat} {ds : List Char}
    (h : writeNat n = '0' :: ds) : ds = [] := by
  induction n using Nat.strongRecOn generalizing ds with
  | _ n ih =>
    by_cases hsmall : n < 10
    · rw [writeNat, Nat.toDigits_of_lt_base hsmall] at h
      exact (List.cons.inj h).2.symm
    · -- The numeral goes on from that of `n / 10`, which is not zero.
      rw [writeNat, Nat.toDigits_of_base_le (by decide) (Nat.le_of_not_lt hsmall), ← writeNat] at h
      cases hfront : writeNat (n / 10) with
      | nil => exact absurd hfront (writeNat_ne_nil _)
      | cons d front =>
        rw [hfront, List.cons_append] at h
        obtain ⟨rfl, -⟩ := List.cons.inj h
        obtain rfl := ih (n / 10) (by omega) hfront
        have hvalue := readNat?_writeNat (n / 10)
        rw [hfront] at hvalue
        have hzero : n / 10 = 0 := (Option.some.inj hvalue).symm
        omega

/-! ## Words -/

/-- The number as a word, if it fits. -/
def toWord? (n : Nat) : Option UInt64 :=
  if n < UInt64.size then some (UInt64.ofNat n) else none

theorem toWord?_toNat (w : UInt64) : toWord? w.toNat = some w := by
  simp [toWord?, UInt64.toNat_lt_size]

/-- The numeral of a word. -/
def writeWord (w : UInt64) : List Char := writeNat w.toNat

theorem isDigit_of_mem_writeWord {w : UInt64} {c : Char} (h : c ∈ writeWord w) :
    c.isDigit = true :=
  isDigit_of_mem_writeNat h

/-- The numeral of a word begins with a digit, and there are only digits behind it. -/
theorem writeWord_eq_cons (w : UInt64) :
    ∃ d ds, writeWord w = d :: ds ∧ d.isDigit = true ∧ ∀ c ∈ ds, c.isDigit = true := by
  have hdigits : ∀ c ∈ writeWord w, c.isDigit = true := fun _ => isDigit_of_mem_writeWord
  cases hword : writeWord w with
  | nil => exact absurd hword (writeNat_ne_nil w.toNat)
  | cons d ds =>
    rw [hword, List.forall_mem_cons] at hdigits
    exact ⟨d, ds, rfl, hdigits⟩

/-- The word a numeral denotes. -/
def readWord? (cs : List Char) : Option UInt64 := (readNat? cs).bind toWord?

/-- Every word is read back from its numeral. -/
theorem readWord?_writeWord (w : UInt64) : readWord? (writeWord w) = some w := by
  simp [readWord?, writeWord, readNat?_writeNat, toWord?_toNat]

/-- The next word, if there is one. -/
def nextWord? (w : UInt64) : Option UInt64 := toWord? (w.toNat + 1)

end DepSpec.Text
