import DepSpec.Json.Reader

set_option autoImplicit false

/-! # JSON texts are read back

The reader inverts the writer on the values that are ever made: numbers are words, strings denote
text, and fields have names (`IsPlain`). `IsPlain.ofChars?_chars` says so of a whole text, and of
one that ends with a line feed.

There is one lemma for each reader. It says what the reader takes from the front of a text that
goes on behind what was written. Only a number can be continued by what follows it, so the text must
not go on with a digit, a point or an exponent (`EndsNumber`). The readers that count down fuel are
given two units for each character of the value.

A text that is written holds no control characters (`hasNoControl_chars`), hence no line feed. -/

namespace DepSpec

open Text

namespace Json

/-! ## Escapes -/

theorem hexValue?_hexDigit {n : Nat} (h : n < 16) : hexValue? (hexDigit n) = some n := by
  have hall : ∀ n : Fin 16, hexValue? (hexDigit n) = some n.val := by decide
  exact hall ⟨n, h⟩

theorem le_toNat_hexDigit {n : Nat} (h : n < 16) : 0x20 ≤ (hexDigit n).toNat := by
  have hall : ∀ n : Fin 16, 0x20 ≤ (hexDigit n).toNat := by decide
  exact hall ⟨n, h⟩

theorem le_toNat_of_escapedChar? {letter c : Char} (h : escapedChar? letter = some c) :
    0x20 ≤ letter.toNat := by
  unfold escapedChar? at h
  split at h <;> first | decide | cases h

/-- The reader's table of letters is the writer's, but for the slash, which may be escaped and
    never is. -/
theorem escapeChar_of_escapedChar? {letter c : Char} (hslash : letter ≠ '/')
    (h : escapedChar? letter = some c) : escapeChar c = ['\\', letter] := by
  unfold escapedChar? at h
  split at h <;> cases h <;> first | rfl | exact absurd rfl hslash

/-- The three ways in which a character stands in a literal. -/
theorem escapeChar_cases (c : Char) :
    (∃ letter, escapedChar? letter = some c ∧ escapeChar c = ['\\', letter]) ∨
    (c.toNat < 0x20 ∧
      escapeChar c = ['\\', 'u', '0', '0', hexDigit (c.toNat / 16), hexDigit (c.toNat % 16)]) ∨
    (0x20 ≤ c.toNat ∧ c ≠ '"' ∧ c ≠ '\\' ∧ escapeChar c = [c]) := by
  by_cases hletter : ∃ letter, letter ≠ '/' ∧ escapedChar? letter = some c
  · obtain ⟨letter, hslash, hescaped⟩ := hletter
    exact Or.inl ⟨letter, hescaped, escapeChar_of_escapedChar? hslash hescaped⟩
  · right
    have hne (letter d : Char) (hslash : letter ≠ '/') (hd : escapedChar? letter = some d) :
        c ≠ d := by
      rintro rfl
      exact hletter ⟨letter, hslash, hd⟩
    have hquote := hne '"' '"' (by decide) rfl
    have hback := hne '\\' '\\' (by decide) rfl
    have hescape : escapeChar c =
        if c.toNat < 0x20 then
          ['\\', 'u', '0', '0', hexDigit (c.toNat / 16), hexDigit (c.toNat % 16)]
        else [c] := by
      simp only [escapeChar, beq_iff_eq, if_neg hquote, if_neg hback,
        if_neg (hne 'b' '\x08' (by decide) rfl), if_neg (hne 'f' '\x0c' (by decide) rfl),
        if_neg (hne 'n' '\n' (by decide) rfl), if_neg (hne 'r' '\r' (by decide) rfl),
        if_neg (hne 't' '\t' (by decide) rfl)]
    rw [hescape]
    by_cases hcontrol : c.toNat < 0x20
    · exact Or.inl ⟨hcontrol, if_pos hcontrol⟩
    · exact Or.inr ⟨Nat.le_of_not_lt hcontrol, hquote, hback, if_neg hcontrol⟩

/-! ## Strings -/

theorem readParts?_letter {letter c : Char} (h : escapedChar? letter = some c) (cs : List Char) :
    readParts? ('\\' :: letter :: cs) =
      (readParts? cs).map fun (parts, rest) => (.char c :: parts, rest) := by
  have hu : letter ≠ 'u' := by
    rintro rfl
    cases h
  rw [readParts?, h]
  · cases readParts? cs <;> rfl
  · exact fun _ _ _ _ _ hletter => absurd hletter hu

theorem readParts?_unit {c : Char} (h : c.toNat < 0x20) (cs : List Char) :
    readParts? ('\\' :: 'u' :: '0' :: '0' :: hexDigit (c.toNat / 16) :: hexDigit (c.toNat % 16)
      :: cs) = (readParts? cs).map fun (parts, rest) => (.char c :: parts, rest) := by
  have hunit : unitPart (((0 * 16 + 0) * 16 + c.toNat / 16) * 16 + c.toNat % 16) = .char c := by
    have hsum : ((0 * 16 + 0) * 16 + c.toNat / 16) * 16 + c.toNat % 16 = c.toNat := by omega
    have hwhole : (0xD800 ≤ c.toNat && c.toNat < 0xE000) = false := by
      simp only [Bool.and_eq_false_iff, decide_eq_false_iff_not]
      omega
    rw [hsum, unitPart, hwhole, Char.ofNat_toNat]
    rfl
  have hzero : hexValue? '0' = some 0 := rfl
  have hhigh := hexValue?_hexDigit (show c.toNat / 16 < 16 by omega)
  have hlow := hexValue?_hexDigit (show c.toNat % 16 < 16 by omega)
  rw [readParts?, hzero, hhigh, hlow, ← hunit]
  cases readParts? cs <;> rfl

theorem readParts?_plain {c : Char} (h : 0x20 ≤ c.toNat) (hquote : c ≠ '"') (hback : c ≠ '\\')
    (cs : List Char) :
    readParts? (c :: cs) =
      (readParts? cs).map fun (parts, rest) => (.char c :: parts, rest) := by
  have hstands : (decide (c.toNat < 0x20) || c == '\\') = false := by
    simpa [hback] using h
  rw [readParts?, hstands]
  · rfl
  · exact hquote
  · exact fun _ _ _ _ _ hc => absurd hc hback
  · exact fun _ _ hc => absurd hc hback

theorem readParts?_escapeChar (c : Char) (cs : List Char) :
    readParts? (escapeChar c ++ cs) =
      (readParts? cs).map fun (parts, rest) => (.char c :: parts, rest) := by
  rcases escapeChar_cases c with ⟨letter, hletter, h⟩ | ⟨hcontrol, h⟩ | ⟨hchar, hquote, hback, h⟩
  · rw [h]
    exact readParts?_letter hletter cs
  · rw [h]
    exact readParts?_unit hcontrol cs
  · rw [h]
    exact readParts?_plain hchar hquote hback cs

theorem readParts?_literal (cs rest : List Char) :
    readParts? (cs.flatMap escapeChar ++ '"' :: rest) = some (cs.map .char, rest) := by
  induction cs with
  | nil => rfl
  | cons c cs ih =>
    rw [List.flatMap_cons, List.append_assoc, readParts?_escapeChar, ih]
    rfl

theorem joinParts?_map_char (cs : List Char) : joinParts? (cs.map .char) = some cs := by
  induction cs with
  | nil => rfl
  | cons c cs ih =>
    rw [List.map_cons, joinParts?, ih]
    rfl

theorem readString?_literal (s : String) (rest : List Char) :
    readString? (s.toList.flatMap escapeChar ++ '"' :: rest) = some (some s, rest) := by
  rw [readString?, readParts?_literal]
  show some ((joinParts? (s.toList.map .char)).map String.ofList, rest) = _
  rw [joinParts?_map_char, Option.map_some, String.ofList_toList]

theorem stringChars_append (s : String) (rest : List Char) :
    stringChars s ++ rest = '"' :: (s.toList.flatMap escapeChar ++ '"' :: rest) := by
  rw [stringChars, List.cons_append, List.cons_append, List.append_assoc]
  rfl

/-! ## Numbers -/

/-- The characters that can go on with a number. -/
def isNumberChar (c : Char) : Bool := c.isDigit || c == '.' || c == 'e' || c == 'E'

theorem isNumberChar_eq_false {c : Char} :
    isNumberChar c = false ↔ c.isDigit = false ∧ c ≠ '.' ∧ c ≠ 'e' ∧ c ≠ 'E' := by
  simp [isNumberChar, and_assoc]

/-- A text that does not go on with a number. -/
def EndsNumber (rest : List Char) : Prop := ∀ c ∈ rest.head?, isNumberChar c = false

theorem endsNumber_nil : EndsNumber [] := nofun

theorem endsNumber_cons {c : Char} (h : isNumberChar c = false) (rest : List Char) :
    EndsNumber (c :: rest) :=
  fun _ hd => Option.some.inj hd ▸ h

theorem readDigits_append {digits rest : List Char} (hdigits : ∀ c ∈ digits, c.isDigit = true)
    (hrest : EndsNumber rest) : readDigits (digits ++ rest) = (digits, rest) := by
  rw [readDigits, List.takeWhile_append_of_pos hdigits, List.dropWhile_append_of_pos hdigits]
  cases rest with
  | nil => simp
  | cons c rest =>
    obtain ⟨hc, -⟩ := isNumberChar_eq_false.1 (hrest c rfl)
    simp [hc]

theorem readWhole?_writeWord (w : UInt64) {rest : List Char} (hrest : EndsNumber rest) :
    readWhole? (writeWord w ++ rest) = some (writeWord w, rest) := by
  rw [readWhole?, readDigits_append (fun _ => isDigit_of_mem_writeWord) hrest]
  split
  · next hnil => exact absurd (congrArg Prod.fst hnil) (writeNat_ne_nil _)
  · next hzero => cases eq_nil_of_writeNat_eq_zero_cons (congrArg Prod.fst hzero)
  · next hdigits => rw [hdigits]

theorem readUnsigned?_writeWord (w : UInt64) {rest : List Char} (hrest : EndsNumber rest) :
    readUnsigned? (writeWord w ++ rest) = some (writeWord w, rest) := by
  have hfraction : readFraction? rest = some ([], rest) := by
    cases rest with
    | nil => rfl
    | cons c rest =>
      obtain ⟨-, hpoint, -⟩ := isNumberChar_eq_false.1 (hrest c rfl)
      rw [readFraction?]
      exact fun _ h => hpoint (List.cons.inj h).1
  have hexponent : readExponent? rest = some ([], rest) := by
    cases rest with
    | nil => rfl
    | cons c rest =>
      obtain ⟨-, -, he, hE⟩ := isNumberChar_eq_false.1 (hrest c rfl)
      simp [readExponent?, he, hE]
  simp [readUnsigned?, readWhole?_writeWord w hrest, hfraction, hexponent]

theorem readNumber?_writeWord (w : UInt64) {rest : List Char} (hrest : EndsNumber rest) :
    readNumber? (writeWord w ++ rest) = some (writeWord w, rest) := by
  obtain ⟨d, ds, hword, hd, -⟩ := writeWord_eq_cons w
  rw [← readUnsigned?_writeWord w hrest, hword, List.cons_append, readNumber?]
  exact fun _ h => absurd (List.cons.inj h).1 (ne_of_isDigit hd rfl)

/-! ## Values -/

theorem skipBlanks_cons {c : Char} (h : isJsonBlank c = false) (cs : List Char) :
    skipBlanks (c :: cs) = c :: cs := by
  rw [skipBlanks, List.dropWhile_cons_of_neg (Bool.not_eq_true _ ▸ h)]

theorem isJsonBlank_of_isDigit {d : Char} (h : d.isDigit = true) : isJsonBlank d = false := by
  simp [isJsonBlank, ne_of_isDigit h (c := ' ') rfl, ne_of_isDigit h (c := '\t') rfl,
    ne_of_isDigit h (c := '\n') rfl, ne_of_isDigit h (c := '\r') rfl]

/-- Fields with their names, as an object holds them. -/
def named (fields : List (String × Json)) : List (Option String × Json) :=
  fields.map fun (name, value) => (some name, value)

/-- The values that are ever made: words for numbers, text in strings, names on fields. -/
inductive IsPlain : Json → Prop where
  | null : IsPlain .null
  | bool (b : Bool) : IsPlain (.bool b)
  | word (w : UInt64) : IsPlain (.ofWord w)
  | text (s : String) : IsPlain (.ofText s)
  | array {items : List Json} (h : ∀ item ∈ items, IsPlain item) : IsPlain (.array items)
  | record {fields : List (String × Json)} (h : ∀ field ∈ fields, IsPlain field.2) :
    IsPlain (.record fields)

/-- The text of a value is not empty, and begins neither with a blank nor with the end of an
    array. -/
theorem IsPlain.exists_head {v : Json} (h : v.IsPlain) :
    ∃ c cs, v.chars = c :: cs ∧ isJsonBlank c = false ∧ c ≠ ']' := by
  cases h with
  | null => exact ⟨_, _, rfl, rfl, by decide⟩
  | bool b => cases b <;> exact ⟨_, _, rfl, rfl, by decide⟩
  | word w =>
    obtain ⟨d, ds, hword, hd, -⟩ := writeWord_eq_cons w
    exact ⟨d, ds, hword, isJsonBlank_of_isDigit hd, ne_of_isDigit hd rfl⟩
  | text s => exact ⟨_, _, rfl, rfl, by decide⟩
  | @array items _ => cases items <;> exact ⟨_, _, rfl, rfl, by decide⟩
  | @record fields _ => cases fields <;> exact ⟨_, _, rfl, rfl, by decide⟩

/-- The reader gives back the value and whatever follows its text. -/
def ReadsBack (v : Json) : Prop :=
  ∀ fuel rest, 2 * v.chars.length ≤ fuel → EndsNumber rest →
    readValue? fuel (v.chars ++ rest) = some (v, rest)

/-- No value is read without fuel, but every text asks for some. -/
theorem readsBack_of_ne_nil {v : Json} (hne : v.chars ≠ [])
    (h : ∀ fuel rest, 2 * v.chars.length ≤ fuel + 1 → EndsNumber rest →
      readValue? (fuel + 1) (v.chars ++ rest) = some (v, rest)) : v.ReadsBack := by
  intro fuel rest hfuel hrest
  have hlength := List.length_pos_iff.2 hne
  obtain _ | fuel := fuel
  · omega
  · exact h fuel rest hfuel hrest

theorem readsBack_ofText (s : String) : (ofText s).ReadsBack := by
  have hchars : (ofText s).chars = stringChars s := rfl
  refine readsBack_of_ne_nil (by simp [hchars, stringChars]) ?_
  intro fuel rest _ _
  rw [hchars, stringChars_append, readValue?]
  show (readString? _).map _ = _
  rw [readString?_literal]
  rfl

theorem readsBack_ofWord (w : UInt64) : (ofWord w).ReadsBack := by
  have hchars : (ofWord w).chars = writeWord w := rfl
  refine readsBack_of_ne_nil (writeNat_ne_nil _) ?_
  intro fuel rest _ hrest
  obtain ⟨d, ds, hword, hd, -⟩ := writeWord_eq_cons w
  have hnumber := readNumber?_writeWord w hrest
  rw [hword, List.cons_append] at hnumber
  rw [hchars, hword, List.cons_append, readValue?, skipBlanks_cons (isJsonBlank_of_isDigit hd)]
  -- A digit is none of the characters that begin the other kinds of values.
  split
  case h_7 =>
    rw [hnumber, Option.map_some, ← hword]
    rfl
  all_goals
    next h => exact absurd (List.cons.inj h).1 (ne_of_isDigit hd rfl)

/-! ## Arrays -/

/-- An item is read to behind its text. -/
theorem readItems?_item {item : Json} (hitem : item.ReadsBack) {fuel : Nat}
    (hfuel : 2 * item.chars.length ≤ fuel) {rest : List Char} (hrest : EndsNumber rest) :
    readItems? (fuel + 1) (item.chars ++ rest) =
      match skipBlanks rest with
      | ',' :: rest => (readItems? fuel rest).map fun (items, rest) => (item :: items, rest)
      | ']' :: rest => some ([item], rest)
      | _ => none := by
  rw [readItems?, hitem fuel rest hfuel hrest]
  rfl

/-- The items of an array are read from the first one to behind the bracket. -/
theorem readItems?_moreItems {item : Json} {items : List Json}
    (hitem : item.ReadsBack) (hitems : ∀ item ∈ items, item.ReadsBack) :
    ∀ fuel rest, 2 * (item.chars ++ moreItems items).length ≤ fuel →
      readItems? fuel (item.chars ++ (moreItems items ++ rest)) = some (item :: items, rest) := by
  induction items generalizing item with
  | nil =>
    intro fuel rest hfuel
    have hmore : moreItems [] = [']'] := rfl
    rw [hmore, List.length_append, List.length_singleton] at hfuel
    obtain _ | fuel := fuel
    · omega
    exact readItems?_item hitem (by omega) (endsNumber_cons rfl rest)
  | cons next items ih =>
    intro fuel rest hfuel
    have hmore : moreItems (next :: items) = ',' :: (next.chars ++ moreItems items) := rfl
    rw [hmore, List.length_append, List.length_cons] at hfuel
    obtain _ | fuel := fuel
    · omega
    obtain ⟨hnext, hitems⟩ := List.forall_mem_cons.1 hitems
    have hread := ih hnext hitems fuel rest (by omega)
    rw [hmore, List.cons_append, List.append_assoc,
      readItems?_item hitem (by omega) (endsNumber_cons rfl _)]
    show (readItems? fuel _).map _ = _
    rw [hread]
    rfl

theorem readsBack_array {items : List Json} (hplain : ∀ item ∈ items, item.IsPlain)
    (hitems : ∀ item ∈ items, item.ReadsBack) : (array items).ReadsBack := by
  refine readsBack_of_ne_nil (by cases items <;> simp [chars]) ?_
  intro fuel rest hfuel _
  cases items with
  | nil => rfl
  | cons item items =>
    have hchars : (array (item :: items)).chars = '[' :: (item.chars ++ moreItems items) := rfl
    rw [hchars, List.length_cons] at hfuel
    obtain ⟨hitem, hitems⟩ := List.forall_mem_cons.1 hitems
    have hread := readItems?_moreItems hitem hitems fuel rest (by omega)
    -- What follows the bracket begins with the first item, so the array is not taken for empty.
    obtain ⟨c, cs, hhead, hblank, hclose⟩ := (hplain item List.mem_cons_self).exists_head
    rw [hhead, List.cons_append] at hread
    rw [hchars, List.cons_append, List.append_assoc, hhead, List.cons_append, readValue?,
      skipBlanks_cons rfl]
    simp only [skipBlanks_cons hblank]
    split
    · next h => exact absurd (List.cons.inj h).1 hclose
    · rw [hread]
      rfl

/-! ## Objects -/

/-- A field is read to behind its value. -/
theorem readFields?_field {name : String} {value : Json} (hvalue : value.ReadsBack)
    {fuel : Nat} (hfuel : 2 * value.chars.length ≤ fuel) {rest : List Char}
    (hrest : EndsNumber rest) :
    readFields? (fuel + 1) (stringChars name ++ ':' :: (value.chars ++ rest)) =
      match skipBlanks rest with
      | ',' :: rest =>
        (readFields? fuel rest).map fun (fields, rest) => ((some name, value) :: fields, rest)
      | '\x7d' :: rest => some ([(some name, value)], rest)
      | _ => none := by
  rw [readFields?, stringChars_append]
  show (readString? _).bind _ = _
  rw [readString?_literal]
  show (readValue? fuel (value.chars ++ rest)).bind _ = _
  rw [hvalue fuel rest hfuel hrest]
  rfl

/-- The fields of an object are read from the first name to behind the brace. -/
theorem readFields?_moreFields (name : String) {value : Json} {fields : List (String × Json)}
    (hvalue : value.ReadsBack) (hfields : ∀ field ∈ fields, field.2.ReadsBack) :
    ∀ fuel rest, 2 * (value.chars ++ moreFields (named fields)).length ≤ fuel →
      readFields? fuel
          (stringChars name ++ ':' :: (value.chars ++ (moreFields (named fields) ++ rest))) =
        some ((some name, value) :: named fields, rest) := by
  induction fields generalizing name value with
  | nil =>
    intro fuel rest hfuel
    have hmore : moreFields (named []) = ['\x7d'] := rfl
    rw [hmore, List.length_append, List.length_singleton] at hfuel
    obtain _ | fuel := fuel
    · omega
    exact readFields?_field hvalue (by omega) (endsNumber_cons rfl rest)
  | cons field fields ih =>
    obtain ⟨nextName, next⟩ := field
    intro fuel rest hfuel
    have hmore : moreFields (named ((nextName, next) :: fields)) =
        ',' :: (stringChars nextName ++ ':' :: (next.chars ++ moreFields (named fields))) := by
      show (',' :: stringChars nextName) ++ ':' :: next.chars ++ moreFields (named fields) = _
      rw [List.append_assoc]
      rfl
    rw [hmore, List.length_append, List.length_cons, List.length_append, List.length_cons] at hfuel
    obtain _ | fuel := fuel
    · omega
    obtain ⟨hnext : next.ReadsBack, hfields⟩ := List.forall_mem_cons.1 hfields
    have hread := ih nextName hnext hfields fuel rest (by omega)
    rw [hmore, List.cons_append, List.append_assoc, List.cons_append, List.append_assoc,
      readFields?_field hvalue (by omega) (endsNumber_cons rfl _)]
    show (readFields? fuel _).map _ = _
    rw [hread]
    rfl

theorem readsBack_record {fields : List (String × Json)}
    (hfields : ∀ field ∈ fields, field.2.ReadsBack) : (record fields).ReadsBack := by
  refine readsBack_of_ne_nil (by cases fields <;> simp [record, chars]) ?_
  intro fuel rest hfuel _
  cases fields with
  | nil => rfl
  | cons field fields =>
    obtain ⟨name, value⟩ := field
    have hchars : (record ((name, value) :: fields)).chars =
        '\x7b' :: (stringChars name ++ ':' :: (value.chars ++ moreFields (named fields))) := by
      show ('\x7b' :: stringChars name) ++ ':' :: value.chars ++ moreFields (named fields) = _
      rw [List.append_assoc]
      rfl
    rw [hchars, List.length_cons, List.length_append, List.length_cons] at hfuel
    obtain ⟨hvalue : value.ReadsBack, hfields⟩ := List.forall_mem_cons.1 hfields
    have hread := readFields?_moreFields name hvalue hfields fuel rest (by omega)
    rw [hchars, List.cons_append, List.append_assoc, List.cons_append, List.append_assoc,
      readValue?, skipBlanks_cons rfl]
    show (readFields? fuel _).map _ = _
    rw [hread]
    rfl

/-! ## Whole texts -/

/-- A plain value is read back whatever follows it, as long as that does not go on with a
    number. -/
theorem IsPlain.readsBack {v : Json} (h : v.IsPlain) : v.ReadsBack := by
  induction h with
  | null =>
    refine readsBack_of_ne_nil (by simp [chars]) ?_
    intro fuel rest _ _
    rfl
  | bool b =>
    refine readsBack_of_ne_nil (by cases b <;> simp [chars]) ?_
    intro fuel rest _ _
    cases b <;> rfl
  | word w => exact readsBack_ofWord w
  | text s => exact readsBack_ofText s
  | array hplain ih => exact readsBack_array hplain ih
  | record _ ih => exact readsBack_record ih

/-- **A plain value is read back from its text**, and from its line. -/
theorem IsPlain.ofChars?_chars {v : Json} (h : v.IsPlain) {rest : List Char}
    (hrest : rest = [] ∨ rest = ['\n']) : ofChars? (v.chars ++ rest) = some v := by
  have hread := h.readsBack (2 * (v.chars ++ rest).length + 2) rest
    (by rw [List.length_append]; omega)
  rcases hrest with rfl | rfl
  · rw [ofChars?, hread endsNumber_nil]
    rfl
  · rw [ofChars?, hread (endsNumber_cons rfl [])]
    rfl

/-! ## Control characters -/

/-- A text without control characters. -/
def HasNoControl (cs : List Char) : Prop := ∀ c ∈ cs, 0x20 ≤ c.toNat

instance (cs : List Char) : Decidable (HasNoControl cs) :=
  List.decidableBAll (fun c : Char => 0x20 ≤ c.toNat) cs

theorem hasNoControl_cons {c : Char} {cs : List Char} :
    HasNoControl (c :: cs) ↔ 0x20 ≤ c.toNat ∧ HasNoControl cs :=
  List.forall_mem_cons

theorem hasNoControl_append {cs ds : List Char} :
    HasNoControl (cs ++ ds) ↔ HasNoControl cs ∧ HasNoControl ds :=
  List.forall_mem_append

theorem hasNoControl_escapeChar (c : Char) : HasNoControl (escapeChar c) := by
  rcases escapeChar_cases c with ⟨letter, hletter, hc⟩ | ⟨hcontrol, hc⟩ | ⟨hchar, -, -, hc⟩
  · rw [hc]
    exact List.forall_mem_cons.2 ⟨by decide, List.forall_mem_singleton.2
      (le_toNat_of_escapedChar? hletter)⟩
  · have hhigh := le_toNat_hexDigit (show c.toNat / 16 < 16 by omega)
    have hlow := le_toNat_hexDigit (show c.toNat % 16 < 16 by omega)
    simp [hc, HasNoControl, hhigh, hlow]
  · rw [hc]
    exact List.forall_mem_singleton.2 hchar

theorem hasNoControl_stringChars (s : String) : HasNoControl (stringChars s) := by
  refine hasNoControl_cons.2 ⟨by decide, hasNoControl_append.2 ⟨?_, by decide⟩⟩
  intro c hc
  obtain ⟨d, -, hc⟩ := List.mem_flatMap.1 hc
  exact hasNoControl_escapeChar d c hc

theorem hasNoControl_moreItems {items : List Json} (h : ∀ item ∈ items, HasNoControl item.chars) :
    HasNoControl (moreItems items) := by
  induction items with
  | nil => decide
  | cons item items ih =>
    obtain ⟨hitem, hitems⟩ := List.forall_mem_cons.1 h
    exact hasNoControl_append.2 ⟨hasNoControl_cons.2 ⟨by decide, hitem⟩, ih hitems⟩

theorem hasNoControl_moreFields {fields : List (String × Json)}
    (h : ∀ field ∈ fields, HasNoControl field.2.chars) :
    HasNoControl (moreFields (named fields)) := by
  induction fields with
  | nil => decide
  | cons field fields ih =>
    obtain ⟨hvalue, hfields⟩ := List.forall_mem_cons.1 h
    have hname := hasNoControl_stringChars field.1
    exact hasNoControl_append.2 ⟨hasNoControl_append.2 ⟨hasNoControl_cons.2 ⟨by decide, hname⟩,
      hasNoControl_cons.2 ⟨by decide, hvalue⟩⟩, ih hfields⟩

/-- No control character stands in the text of a plain value. -/
theorem IsPlain.hasNoControl_chars {v : Json} (h : v.IsPlain) : HasNoControl v.chars := by
  induction h with
  | null => decide
  | bool b => cases b <;> decide
  | word w =>
    intro c hc
    have hdigit : c.isDigit = true := isDigit_of_mem_writeWord hc
    simp only [Char.isDigit, Bool.and_eq_true, decide_eq_true_eq] at hdigit
    exact Nat.le_trans (by decide) (UInt32.le_iff_toNat_le.1 hdigit.1)
  | text s => exact hasNoControl_stringChars s
  | @array items _ ih =>
    cases items with
    | nil => decide
    | cons item items =>
      obtain ⟨hitem, hitems⟩ := List.forall_mem_cons.1 ih
      exact hasNoControl_append.2 ⟨hasNoControl_cons.2 ⟨by decide, hitem⟩,
        hasNoControl_moreItems hitems⟩
  | @record fields _ ih =>
    cases fields with
    | nil => decide
    | cons field fields =>
      obtain ⟨hvalue, hfields⟩ := List.forall_mem_cons.1 ih
      have hname := hasNoControl_stringChars field.1
      exact hasNoControl_append.2 ⟨hasNoControl_append.2 ⟨hasNoControl_cons.2 ⟨by decide, hname⟩,
        hasNoControl_cons.2 ⟨by decide, hvalue⟩⟩, hasNoControl_moreFields hfields⟩

end Json

end DepSpec
