import DepSpec.Text.Utf8
import Mathlib.Order.Defs.LinearOrder

set_option autoImplicit false

/-! # The order of texts by their bytes

UTF-8 keeps the order of texts: whether two texts are compared by their bytes or by their characters
makes no difference (`compareLex_encodeText`). The bytes of one character are its number written in
base 64, so that comparing them from the front compares quotients before remainders
(`compare_div_mod`); the lead byte tells how many there are, and more bytes mean a larger number. -/

namespace DepSpec.Text

/-! ## Numbers -/

theorem compare_char (c d : Char) : compare c d = compare c.toNat d.toNat := by
  simp only [compare, compareOfLessAndEq, Char.lt_def, ← Char.toNat_inj]
  rfl

theorem compare_word (m n : UInt64) : compare m n = compare m.toNat n.toNat := by
  simp only [compare, compareOfLessAndEq, UInt64.lt_iff_toNat_lt, ← UInt64.toNat_inj]

theorem compare_add_left (base m n : Nat) : compare (base + m) (base + n) = compare m n := by
  simp only [compare, compareOfLessAndEq, Nat.add_lt_add_iff_left, Nat.add_left_cancel_iff]

/-- The order of numbers is that of their quotients, and then that of their remainders. -/
theorem compare_div_mod (m n k : Nat) :
    compare m n = (compare (m / k) (n / k)).then (compare (m % k) (n % k)) := by
  rcases Nat.lt_trichotomy (m / k) (n / k) with hlt | heq | hgt
  · rw [Nat.compare_eq_lt.2 hlt, Nat.compare_eq_lt.2 (Nat.lt_of_div_lt_div hlt)]
    rfl
  · have hm := Nat.div_add_mod m k
    have hn := Nat.div_add_mod n k
    rw [heq] at hm
    rw [heq, Nat.compare_eq_eq.2 rfl, Ordering.eq_then,
      ← compare_add_left (k * (n / k)) (m % k), hm, hn]
  · rw [Nat.compare_eq_gt.2 hgt, Nat.compare_eq_gt.2 (Nat.lt_of_div_lt_div hgt)]
    rfl

/-! ## Bytes -/

/-- Bytes are in the order of their values. -/
theorem compareLex_byte {m n : Nat} (hm : m < 256) (hn : n < 256) (bytes more : List UInt8) :
    List.compareLex compare (UInt8.ofNat m :: bytes) (UInt8.ofNat n :: more) =
      (compare m n).then (List.compareLex compare bytes more) := by
  rw [List.compareLex_cons_cons]
  simp only [compare, compareOfLessAndEq, UInt8.lt_iff_toNat_lt, ← UInt8.toNat_inj,
    UInt8.toNat_ofNat_of_lt' hm, UInt8.toNat_ofNat_of_lt' hn]

/-- The same where both are counted from one base. -/
theorem compareLex_byte_add {base m n : Nat} (hm : base + m < 256) (hn : base + n < 256)
    (bytes more : List UInt8) :
    List.compareLex compare (UInt8.ofNat (base + m) :: bytes) (UInt8.ofNat (base + n) :: more) =
      (compare m n).then (List.compareLex compare bytes more) := by
  rw [compareLex_byte hm hn, compare_add_left]

/-- Where the lead bytes differ as the numbers do, nothing else counts. -/
theorem compareLex_lead {a b m n : Nat} (ha : a < 256) (hb : b < 256)
    (h : a < b ∧ m < n ∨ b < a ∧ n < m) (bytes more : List UInt8) (rest : Ordering) :
    List.compareLex compare (UInt8.ofNat a :: bytes) (UInt8.ofNat b :: more) =
      (compare m n).then rest := by
  rw [compareLex_byte ha hb]
  rcases h with ⟨hab, hmn⟩ | ⟨hba, hnm⟩
  · rw [Nat.compare_eq_lt.2 hab, Nat.compare_eq_lt.2 hmn]
    rfl
  · rw [Nat.compare_eq_gt.2 hba, Nat.compare_eq_gt.2 hnm]
    rfl

/-! ## Characters and texts -/

/-- The bytes of two characters, whatever follows them, are in the order of the characters. -/
theorem compareLex_utf8EncodeChar (c d : Char) (bytes more : List UInt8) :
    List.compareLex compare (String.utf8EncodeChar c ++ bytes) (String.utf8EncodeChar d ++ more) =
      (compare c d).then (List.compareLex compare bytes more) := by
  have hc := toNat_valid c
  have hd := toNat_valid d
  rw [compare_char, utf8EncodeChar_eq, utf8EncodeChar_eq]
  generalize c.toNat = m at hc ⊢
  generalize d.toNat = n at hd ⊢
  -- One case for each number of bytes; different ones are told apart by the lead bytes.
  split
  · split
    · exact compareLex_byte (by omega) (by omega) _ _
    · repeat' split
      all_goals exact compareLex_lead (by omega) (by omega) (by omega) _ _ _
  split
  · split
    · exact compareLex_lead (by omega) (by omega) (by omega) _ _ _
    split
    · simp only [List.cons_append, List.nil_append]
      rw [compareLex_byte_add (by omega) (by omega), compareLex_byte_add (by omega) (by omega),
        compare_div_mod m n 64, Ordering.then_assoc]
    · repeat' split
      all_goals exact compareLex_lead (by omega) (by omega) (by omega) _ _ _
  split
  · split
    · exact compareLex_lead (by omega) (by omega) (by omega) _ _ _
    split
    · exact compareLex_lead (by omega) (by omega) (by omega) _ _ _
    split
    · simp only [List.cons_append, List.nil_append]
      rw [compareLex_byte_add (by omega) (by omega), compareLex_byte_add (by omega) (by omega),
        compareLex_byte_add (by omega) (by omega), compare_div_mod m n 64,
        compare_div_mod (m / 64) (n / 64) 64]
      simp only [Nat.div_div_eq_div_mul, Ordering.then_assoc, Nat.reduceMul]
    · exact compareLex_lead (by omega) (by omega) (by omega) _ _ _
  · split
    · exact compareLex_lead (by omega) (by omega) (by omega) _ _ _
    split
    · exact compareLex_lead (by omega) (by omega) (by omega) _ _ _
    split
    · exact compareLex_lead (by omega) (by omega) (by omega) _ _ _
    · simp only [List.cons_append, List.nil_append]
      rw [compareLex_byte_add (by omega) (by omega), compareLex_byte_add (by omega) (by omega),
        compareLex_byte_add (by omega) (by omega), compareLex_byte_add (by omega) (by omega),
        compare_div_mod m n 64, compare_div_mod (m / 64) (n / 64) 64,
        compare_div_mod (m / 64 / 64) (n / 64 / 64) 64]
      simp only [Nat.div_div_eq_div_mul, Ordering.then_assoc, Nat.reduceMul]

theorem exists_encodeText_cons (c : Char) (cs : List Char) :
    ∃ b bytes, encodeText (c :: cs) = b :: bytes := by
  obtain ⟨b, bytes, h, -⟩ := decodeChar_utf8EncodeChar c []
  exact ⟨b, bytes ++ encodeText cs, by rw [encodeText, List.flatMap_cons, h]; rfl⟩

/-- **Texts are in the order of their bytes.** -/
theorem compareLex_encodeText (cs ds : List Char) :
    List.compareLex compare (encodeText cs) (encodeText ds) = List.compareLex compare cs ds := by
  induction cs generalizing ds with
  | nil =>
    cases ds with
    | nil => rfl
    | cons d ds =>
      obtain ⟨b, bytes, h⟩ := exists_encodeText_cons d ds
      rw [h]
      rfl
  | cons c cs ih =>
    cases ds with
    | nil =>
      obtain ⟨b, bytes, h⟩ := exists_encodeText_cons c cs
      rw [h]
      rfl
    | cons d ds =>
      rw [List.compareLex_cons_cons, ← ih]
      exact compareLex_utf8EncodeChar c d _ _

end DepSpec.Text
