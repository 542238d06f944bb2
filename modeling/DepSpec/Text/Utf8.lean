set_option autoImplicit false

/-! # UTF-8

Encoding, and decoding of arbitrary bytes. Where the bytes are no UTF-8, the decoder writes the
replacement character once for each longest run that could still have begun a character, and goes
on behind it. Main statement: `decode_encode`, text survives the way through bytes. -/

namespace DepSpec.Text

/-- The character that stands for bytes that are no text. -/
def replacementChar : Char := '\uFFFD'

/-! ## Encoding -/

/-- The bytes of a text. -/
def encodeText (cs : List Char) : List UInt8 := cs.flatMap String.utf8EncodeChar

/-- The number of bytes of a text. -/
def byteLength : List Char → Nat
  | [] => 0
  | c :: cs => c.utf8Size + byteLength cs

theorem byteLength_append (cs ds : List Char) :
    byteLength (cs ++ ds) = byteLength cs + byteLength ds := by
  induction cs with
  | nil => simp [byteLength]
  | cons c cs ih => rw [List.cons_append, byteLength, ih, byteLength, Nat.add_assoc]

/-! ## Decoding -/

/-- Read `left` more continuation bytes onto the value `acc`; the next one must lie between `low`
    and `high`, later ones anywhere in the continuation range. A byte out of range ends the
    character early and is left for the next one. -/
def continueChar : (left low high acc : Nat) → List UInt8 → Char × List UInt8
  | 0, _, _, acc, rest => (Char.ofNat acc, rest)
  | _ + 1, _, _, _, [] => (replacementChar, [])
  | left + 1, low, high, acc, b :: rest =>
    if low ≤ b.toNat && b.toNat ≤ high then
      continueChar left 0x80 0xBF (acc * 64 + (b.toNat - 0x80)) rest
    else (replacementChar, b :: rest)

/-- The character that begins with byte `b`, and the bytes behind it. The narrower ranges of the
    second byte keep out overlong forms, surrogates and values above the last code point. -/
def decodeChar (b : UInt8) (rest : List UInt8) : Char × List UInt8 :=
  let n := b.toNat
  if n < 0x80 then (Char.ofNat n, rest)
  else if n < 0xC2 then (replacementChar, rest)
  else if n < 0xE0 then continueChar 1 0x80 0xBF (n - 0xC0) rest
  else if n < 0xF0 then
    continueChar 2 (if n = 0xE0 then 0xA0 else 0x80) (if n = 0xED then 0x9F else 0xBF)
      (n - 0xE0) rest
  else if n < 0xF5 then
    continueChar 3 (if n = 0xF0 then 0x90 else 0x80) (if n = 0xF4 then 0x8F else 0xBF)
      (n - 0xF0) rest
  else (replacementChar, rest)

theorem length_continueChar_le (left low high acc : Nat) (rest : List UInt8) :
    (continueChar left low high acc rest).2.length ≤ rest.length := by
  induction left generalizing low high acc rest with
  | zero => simp [continueChar]
  | succ left ih =>
    cases rest with
    | nil => simp [continueChar]
    | cons b rest =>
      unfold continueChar
      split
      · exact Nat.le_trans (ih _ _ _ _) (by simp)
      · simp

theorem length_decodeChar_le (b : UInt8) (rest : List UInt8) :
    (decodeChar b rest).2.length ≤ rest.length := by
  unfold decodeChar
  simp only
  split
  · exact Nat.le_refl _
  split
  · exact Nat.le_refl _
  split
  · exact length_continueChar_le ..
  split
  · exact length_continueChar_le ..
  split
  · exact length_continueChar_le ..
  · exact Nat.le_refl _

/-- The text of arbitrary bytes. -/
def decodeText : List UInt8 → List Char
  | [] => []
  | b :: rest => (decodeChar b rest).1 :: decodeText (decodeChar b rest).2
termination_by bytes => bytes.length
decreasing_by
  have := length_decodeChar_le b rest
  simp only [List.length_cons]
  omega

/-! ## Round trip -/

theorem toNat_valid (c : Char) : c.toNat < 0xD800 ∨ (0xDFFF < c.toNat ∧ c.toNat < 0x110000) :=
  c.valid

/-- The bytes of one character: one to four, the lead byte telling how many. No quotient is larger
    than the mask that it goes through. -/
theorem utf8EncodeChar_eq (c : Char) :
    String.utf8EncodeChar c =
      if c.toNat < 0x80 then [UInt8.ofNat c.toNat]
      else if c.toNat < 0x800 then
        [UInt8.ofNat (0xC0 + c.toNat / 64), UInt8.ofNat (0x80 + c.toNat % 64)]
      else if c.toNat < 0x10000 then
        [UInt8.ofNat (0xE0 + c.toNat / 4096), UInt8.ofNat (0x80 + c.toNat / 64 % 64),
          UInt8.ofNat (0x80 + c.toNat % 64)]
      else
        [UInt8.ofNat (0xF0 + c.toNat / 262144), UInt8.ofNat (0x80 + c.toNat / 4096 % 64),
          UInt8.ofNat (0x80 + c.toNat / 64 % 64), UInt8.ofNat (0x80 + c.toNat % 64)] := by
  have hv := toNat_valid c
  have hunfold : String.utf8EncodeChar c =
      if c.toNat ≤ 127 then [UInt8.ofNat c.toNat]
      else if c.toNat ≤ 2047 then
        [UInt8.ofNat (c.toNat / 64 % 32 + 192), UInt8.ofNat (c.toNat % 64 + 128)]
      else if c.toNat ≤ 65535 then
        [UInt8.ofNat (c.toNat / 4096 % 16 + 224), UInt8.ofNat (c.toNat / 64 % 64 + 128),
          UInt8.ofNat (c.toNat % 64 + 128)]
      else
        [UInt8.ofNat (c.toNat / 262144 % 8 + 240), UInt8.ofNat (c.toNat / 4096 % 64 + 128),
          UInt8.ofNat (c.toNat / 64 % 64 + 128), UInt8.ofNat (c.toNat % 64 + 128)] := rfl
  rw [hunfold, Nat.add_comm (c.toNat % 64), Nat.add_comm (c.toNat / 64 % 64),
    Nat.add_comm (c.toNat / 4096 % 64)]
  by_cases hone : c.toNat < 0x80
  · rw [if_pos (Nat.le_of_lt_succ hone), if_pos hone]
  rw [if_neg (by omega), if_neg hone]
  by_cases htwo : c.toNat < 0x800
  · rw [if_pos (Nat.le_of_lt_succ htwo), if_pos htwo,
      show c.toNat / 64 % 32 + 192 = 0xC0 + c.toNat / 64 by omega]
  rw [if_neg (by omega), if_neg htwo]
  by_cases hthree : c.toNat < 0x10000
  · rw [if_pos (Nat.le_of_lt_succ hthree), if_pos hthree,
      show c.toNat / 4096 % 16 + 224 = 0xE0 + c.toNat / 4096 by omega]
  · rw [if_neg (by omega), if_neg hthree,
      show c.toNat / 262144 % 8 + 240 = 0xF0 + c.toNat / 262144 by omega]

theorem decodeChar_utf8EncodeChar (c : Char) (rest : List UInt8) :
    ∃ b bs, String.utf8EncodeChar c = b :: bs ∧ decodeChar b (bs ++ rest) = (c, rest) := by
  have hv := toNat_valid c
  have hc : Char.ofNat c.toNat = c := Char.ofNat_toNat c
  have hlow : (UInt8.ofNat (0x80 + c.toNat % 64)).toNat = 0x80 + c.toNat % 64 :=
    UInt8.toNat_ofNat_of_lt' (show _ < 256 by omega)
  have hmiddle : (UInt8.ofNat (0x80 + c.toNat / 64 % 64)).toNat = 0x80 + c.toNat / 64 % 64 :=
    UInt8.toNat_ofNat_of_lt' (show _ < 256 by omega)
  rw [utf8EncodeChar_eq]
  split
  · next h =>
    refine ⟨_, _, rfl, ?_⟩
    have hlead := UInt8.toNat_ofNat_of_lt' (show c.toNat < 256 by omega)
    simp [decodeChar, hlead, h, hc]
  split
  · next h₁ h₂ =>
    refine ⟨_, _, rfl, ?_⟩
    have hlead := UInt8.toNat_ofNat_of_lt' (show 0xC0 + c.toNat / 64 < 256 by omega)
    unfold decodeChar
    simp only [hlead]
    rw [if_neg (by omega), if_neg (by omega), if_pos (by omega)]
    simp only [List.cons_append, List.nil_append, continueChar, hlow]
    rw [if_pos (by simp; omega)]
    rw [show (0xC0 + c.toNat / 64 - 0xC0) * 64 + (0x80 + c.toNat % 64 - 0x80) = c.toNat by omega,
      hc]
  split
  · next h₁ h₂ h₃ =>
    refine ⟨_, _, rfl, ?_⟩
    have hlead := UInt8.toNat_ofNat_of_lt' (show 0xE0 + c.toNat / 4096 < 256 by omega)
    unfold decodeChar
    simp only [hlead]
    rw [if_neg (by omega), if_neg (by omega), if_neg (by omega), if_pos (by omega)]
    simp only [List.cons_append, List.nil_append, continueChar, hmiddle, hlow]
    rw [if_pos (by simp only [Bool.and_eq_true, decide_eq_true_eq]; split <;> split <;> omega),
      if_pos (by simp; omega)]
    rw [show ((0xE0 + c.toNat / 4096 - 0xE0) * 64 + (0x80 + c.toNat / 64 % 64 - 0x80)) * 64
      + (0x80 + c.toNat % 64 - 0x80) = c.toNat by omega, hc]
  · next h₁ h₂ h₃ =>
    refine ⟨_, _, rfl, ?_⟩
    have hlead := UInt8.toNat_ofNat_of_lt' (show 0xF0 + c.toNat / 262144 < 256 by omega)
    have hhigh := UInt8.toNat_ofNat_of_lt' (show 0x80 + c.toNat / 4096 % 64 < 256 by omega)
    unfold decodeChar
    simp only [hlead]
    rw [if_neg (by omega), if_neg (by omega), if_neg (by omega), if_neg (by omega),
      if_pos (by omega)]
    simp only [List.cons_append, List.nil_append, continueChar, hhigh, hmiddle, hlow]
    rw [if_pos (by simp only [Bool.and_eq_true, decide_eq_true_eq]; split <;> split <;> omega),
      if_pos (by simp; omega), if_pos (by simp; omega)]
    rw [show (((0xF0 + c.toNat / 262144 - 0xF0) * 64 + (0x80 + c.toNat / 4096 % 64 - 0x80)) * 64
      + (0x80 + c.toNat / 64 % 64 - 0x80)) * 64 + (0x80 + c.toNat % 64 - 0x80) = c.toNat by omega,
      hc]

/-- Bytes that begin with a text are read as that text and whatever the others make. -/
theorem decodeText_append (cs : List Char) (bytes : List UInt8) :
    decodeText (encodeText cs ++ bytes) = cs ++ decodeText bytes := by
  induction cs with
  | nil => rfl
  | cons c cs ih =>
    obtain ⟨b, bs, he, hd⟩ := decodeChar_utf8EncodeChar c (encodeText cs ++ bytes)
    rw [encodeText, List.flatMap_cons, he, ← encodeText, List.append_assoc, List.cons_append,
      decodeText, hd, ih]
    rfl

/-- Text survives the way through bytes. -/
theorem decode_encode (cs : List Char) : decodeText (encodeText cs) = cs := by
  have h := decodeText_append cs []
  rwa [List.append_nil, decodeText, List.append_nil] at h

/-- Whether a byte begins no character: a continuation byte, or one that no text holds. -/
def isStray (b : UInt8) : Bool := (0x80 ≤ b.toNat && b.toNat < 0xC2) || 0xF5 ≤ b.toNat

/-- Such a byte is replaced by itself. -/
theorem decodeText_stray {b : UInt8} (h : isStray b = true) (bytes : List UInt8) :
    decodeText (b :: bytes) = replacementChar :: decodeText bytes := by
  have hchar : decodeChar b bytes = (replacementChar, bytes) := by
    simp only [isStray, Bool.or_eq_true, Bool.and_eq_true, decide_eq_true_eq] at h
    unfold decodeChar
    by_cases hlow : b.toNat < 0xC2
    · rw [if_neg (by omega), if_pos hlow]
    · rw [if_neg (by omega), if_neg hlow, if_neg (by omega), if_neg (by omega), if_neg (by omega)]
  rw [decodeText, hchar]

/-! ## Bytes -/

theorem length_encodeText (cs : List Char) : (encodeText cs).length = byteLength cs := by
  induction cs with
  | nil => rfl
  | cons c cs ih =>
    rw [encodeText, List.flatMap_cons, List.length_append, String.length_utf8EncodeChar, byteLength,
      ← ih]
    rfl

/-- A byte of the ASCII range stands for its own character only. -/
theorem toNat_eq_of_mem_utf8EncodeChar {c : Char} {b : UInt8} (h : b ∈ String.utf8EncodeChar c)
    (hb : b.toNat < 0x80) : c.toNat = b.toNat := by
  have hc := toNat_valid c
  have hbyte {n : Nat} (hn : n < 256) (hsame : b = UInt8.ofNat n) : b.toNat = n :=
    hsame ▸ UInt8.toNat_ofNat_of_lt' hn
  rw [utf8EncodeChar_eq] at h
  split at h
  · exact (hbyte (by omega) (List.mem_singleton.1 h)).symm
  -- All bytes of longer forms are above the range.
  all_goals exfalso
  split at h
  · simp only [List.mem_cons, List.not_mem_nil, or_false] at h
    rcases h with h | h <;> rw [hbyte (by omega) h] at hb <;> omega
  split at h
  · simp only [List.mem_cons, List.not_mem_nil, or_false] at h
    rcases h with h | h | h <;> rw [hbyte (by omega) h] at hb <;> omega
  · simp only [List.mem_cons, List.not_mem_nil, or_false] at h
    rcases h with h | h | h | h <;> rw [hbyte (by omega) h] at hb <;> omega

theorem not_mem_encodeText {cs : List Char} {c : Char} (hc : c.toNat < 0x80) (h : c ∉ cs) :
    UInt8.ofNat c.toNat ∉ encodeText cs := by
  intro hmem
  obtain ⟨d, hd, hbyte⟩ := List.mem_flatMap.1 hmem
  have hval := UInt8.toNat_ofNat_of_lt' (show c.toNat < 256 by omega)
  have heq := toNat_eq_of_mem_utf8EncodeChar hbyte (by omega)
  rw [hval] at heq
  obtain rfl : d = c := Char.toNat_inj.1 heq
  exact h hd

end DepSpec.Text
