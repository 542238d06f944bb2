import DepSpec.Proofs.Specifier.WireForm
import DepSpec.Service.Response

set_option autoImplicit false

/-! # Response lines are read back

A response line holds one line feed, its last character, in both envelopes, since the text of a
JSON value escapes all others. What the line denotes is what was written on it: the outcome, in the
result envelope; the specifier of a success, and nothing for a failure, in the legacy envelope. -/

namespace DepSpec

open Text Json

/-! ## The value on a line -/

namespace Outcome

variable (outcome : Outcome)

theorem isPlain_toJson (envelope : Envelope) : (toJson outcome envelope).IsPlain := by
  cases envelope with
  | result =>
    cases outcome with
    | ok spec => exact isPlain_variant spec.isPlain_toJson
    | error e => exact isPlain_variant (.text e.wireText)
  | legacy =>
    cases outcome with
    | ok spec => exact spec.isPlain_toJson
    | error e => exact isPlain_variant (.text e.wireText)

theorem answer_ofJson?_toJson : Answer.ofJson? (toJson outcome .result) = some outcome.answer := by
  cases outcome with
  | ok spec =>
    show (Specifier.ofJson? spec.toJson).map _ = _
    rw [spec.ofJson?_toJson]
    rfl
  | error e => rfl

/-- A failure is no specifier in the legacy envelope. -/
theorem specifier_ofJson?_toJson :
    Specifier.ofJson? (toJson outcome .legacy) = outcome.toOption := by
  cases outcome with
  | ok spec => exact spec.ofJson?_toJson
  | error e => rfl

/-! ## The line -/

theorem toList_line (envelope : Envelope) :
    (line outcome envelope).toList = (toJson outcome envelope).chars ++ ['\n'] :=
  String.toList_ofList

theorem lineFeed_not_mem_chars (envelope : Envelope) :
    '\n' ∉ (toJson outcome envelope).chars := by
  intro h
  have hcontrol : 0x20 ≤ '\n'.toNat := (isPlain_toJson outcome envelope).hasNoControl_chars _ h
  exact absurd hcontrol (by decide)

/-- The envelope ends with a brace, so trimming takes the line feed alone. -/
theorem trimEnd_line :
    trimEnd (line outcome .result).toList = (toJson outcome .result).chars := by
  obtain ⟨front, hfront⟩ : ∃ front, (toJson outcome .result).chars = front ++ ['\x7d'] := by
    cases outcome <;> exact ⟨_, rfl⟩
  rw [toList_line, hfront, trimEnd]
  simp [isBlank]

theorem answer_ofLine?_line : Answer.ofLine? (line outcome .result) = some outcome.answer := by
  have hread := (isPlain_toJson outcome .result).ofChars?_chars (Or.inl rfl)
  rw [List.append_nil] at hread
  rw [Answer.ofLine?, trimEnd_line, hread]
  exact answer_ofJson?_toJson outcome

theorem specifier_ofLine_legacy :
    (Json.parse? (line outcome .legacy)).bind Specifier.ofJson? = outcome.toOption := by
  have hread := (isPlain_toJson outcome .legacy).ofChars?_chars (Or.inr rfl)
  rw [Json.parse?, toList_line, hread]
  exact specifier_ofJson?_toJson outcome

/-- **A response is one line, and denotes what was written on it.** In both envelopes the only line
    feed is the last character. The result envelope gives back the answer to the request; the
    legacy envelope gives back the specifier, and a failure in it is not mistaken for one. -/
theorem line_denotes_outcome :
    (∀ envelope, ∃ body, (line outcome envelope).toList = body ++ ['\n'] ∧ '\n' ∉ body) ∧
      Answer.ofLine? (line outcome .result) = some outcome.answer ∧
      (Json.parse? (line outcome .legacy)).bind Specifier.ofJson? = outcome.toOption := by
  refine ⟨?_, answer_ofLine?_line outcome, specifier_ofLine_legacy outcome⟩
  intro envelope
  exact ⟨_, toList_line outcome envelope, lineFeed_not_mem_chars outcome envelope⟩

/-! ## A request over the limit -/

/-- A digit stands for itself in a string literal. -/
theorem escapeChar_of_isDigit {c : Char} (h : c.isDigit = true) : escapeChar c = [c] := by
  have hne (d : Char) (hd : d.isDigit = false) : (c == d) = false :=
    beq_eq_false_iff_ne.2 (ne_of_isDigit h hd)
  have hlow : ¬c.toNat < 0x20 := by
    have := (toNat_of_isDigit h).1
    omega
  simp [escapeChar, hne, hlow]

theorem flatMap_escapeChar_writeWord (w : UInt64) :
    (writeWord w).flatMap escapeChar = writeWord w := by
  have hself : (writeWord w).map escapeChar = (writeWord w).map fun c => [c] :=
    List.map_congr_left fun c hc => escapeChar_of_isDigit (isDigit_of_mem_writeWord hc)
  rw [List.flatMap_def, hself, ← List.flatMap_def, List.flatMap_singleton']

/-- The line for a request over the limit: the failure with its code, and the limit in digits. -/
theorem toList_line_tooLarge (limit : UInt64) (envelope : Envelope) :
    (line (.error (tooLarge limit)) envelope).toList =
      (match envelope with
        | .result => "\x7b\"Err\":\"ETOOLARGE: request exceeds ".toList
        | .legacy => "\x7b\"Invalid\":\"ETOOLARGE: request exceeds ".toList) ++
      writeWord limit ++ " bytes\"\x7d\n".toList := by
  have htext : (tooLarge limit).wireText.toList =
      "ETOOLARGE: request exceeds ".toList ++ writeWord limit ++ " bytes".toList := by
    show ("ETOOLARGE" ++ ": " ++ ("request exceeds " ++ String.ofList (writeWord limit) ++ " bytes")).toList
      = _
    simp only [String.toList_append, String.toList_ofList]
    rw [List.append_assoc _ (writeWord limit), List.append_assoc _ (writeWord limit),
      ← List.append_assoc]
    rfl
  have hliteral : stringChars (tooLarge limit).wireText =
      "\"ETOOLARGE: request exceeds ".toList ++ writeWord limit ++ " bytes\"".toList := by
    rw [stringChars, htext, List.flatMap_append, List.flatMap_append, flatMap_escapeChar_writeWord]
    simp [escapeChar]
  rw [toList_line]
  cases envelope with
  | result =>
    have hchars : (toJson (.error (tooLarge limit)) .result).chars =
        "\x7b\"Err\":".toList ++ stringChars (tooLarge limit).wireText ++ ['\x7d'] := rfl
    rw [hchars, hliteral]
    simp
  | legacy =>
    have hchars : (toJson (.error (tooLarge limit)) .legacy).chars =
        "\x7b\"Invalid\":".toList ++ stringChars (tooLarge limit).wireText ++ ['\x7d'] := rfl
    rw [hchars, hliteral]
    simp

end Outcome

end DepSpec
