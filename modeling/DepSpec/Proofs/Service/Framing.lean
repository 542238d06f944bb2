import DepSpec.Service.Frame

set_option autoImplicit false

/-! # Framing does not depend on the cuts

However a stream is cut into reads, a framer with line framing gives the frames of the whole
stream, `Frame.ofStream`. Two things carry the proof. `Frame.told` says which frames are known once
some bytes of a stream have arrived: those of the complete lines, and the mark of a line that is
over the limit before it ends. `Framer.Holds` ties the state of a framer to the line that has begun
and not ended. One read extends both (`Framer.told_push`), so that any number of reads does
(`Framer.told_pushAll`), and the end of the stream turns what was told into the frames of the
stream (`Framer.told_finish`). -/

namespace DepSpec

open Text

namespace Frame

/-! ## The lines of a stream -/

theorem cutLines_of_not_mem {bytes : List UInt8} (h : lineFeed ∉ bytes) :
    cutLines bytes = ([], bytes) := by
  induction bytes with
  | nil => rfl
  | cons b bytes ih =>
    rw [List.mem_cons, not_or] at h
    rw [cutLines, if_neg (Ne.symm h.1), ih h.2]

/-- A line feed ends the line in front of it. -/
theorem cutLines_line {line : List UInt8} (h : lineFeed ∉ line) (bytes : List UInt8) :
    cutLines (line ++ lineFeed :: bytes) =
      (line :: (cutLines bytes).1, (cutLines bytes).2) := by
  induction line with
  | nil => rw [List.nil_append, cutLines, if_pos rfl]
  | cons b line ih =>
    rw [List.mem_cons, not_or] at h
    rw [List.cons_append, cutLines, if_neg (Ne.symm h.1), ih h.2]

/-- Bytes hold no line feed, or begin with a line. -/
theorem not_mem_or_eq_line (bytes : List UInt8) :
    lineFeed ∉ bytes ∨
      ∃ line rest, bytes = line ++ lineFeed :: rest ∧ lineFeed ∉ line := by
  by_cases h : lineFeed ∈ bytes
  · obtain ⟨line, rest, hbytes, hline⟩ := List.eq_append_cons_of_mem h
    exact Or.inr ⟨line, rest, hbytes, hline⟩
  · exact Or.inl h

/-- The lines, each with its line feed, and the tail are the stream; none holds another line
    feed. -/
theorem cutLines_spec (bytes : List UInt8) :
    bytes = (cutLines bytes).1.flatMap (· ++ [lineFeed]) ++ (cutLines bytes).2 ∧
      (∀ line ∈ (cutLines bytes).1, lineFeed ∉ line) ∧ lineFeed ∉ (cutLines bytes).2 := by
  induction bytes with
  | nil => simp [cutLines]
  | cons b bytes ih =>
    obtain ⟨hbytes, hlines, htail⟩ := ih
    by_cases hb : b = lineFeed
    · rw [cutLines, if_pos hb, hb]
      refine ⟨by simpa using hbytes, ?_, htail⟩
      intro line hline
      rcases List.mem_cons.1 hline with rfl | hline
      · exact List.not_mem_nil
      · exact hlines line hline
    · rw [cutLines, if_neg hb]
      rcases hcut : cutLines bytes with ⟨_ | ⟨line, lines⟩, tail⟩
      · rw [hcut] at hbytes htail
        exact ⟨congrArg (b :: ·) hbytes, by simp, by simpa [Ne.symm hb] using htail⟩
      · rw [hcut] at hbytes hlines htail
        refine ⟨congrArg (b :: ·) hbytes, ?_, htail⟩
        simpa [Ne.symm hb] using hlines

/-- **The lines and the tail are the only way to write a stream** as pieces that end with a line
    feed, hold none but that one, and are followed by bytes without any. -/
theorem cutLines_eq_iff {bytes : List UInt8} {lines : List (List UInt8)} {tail : List UInt8} :
    cutLines bytes = (lines, tail) ↔
      bytes = lines.flatMap (· ++ [lineFeed]) ++ tail ∧
        (∀ line ∈ lines, lineFeed ∉ line) ∧ lineFeed ∉ tail := by
  constructor
  · intro h
    simpa only [h] using cutLines_spec bytes
  · rintro ⟨rfl, hlines, htail⟩
    induction lines with
    | nil => exact cutLines_of_not_mem htail
    | cons line lines ih =>
      have hrest := ih fun l hl => hlines l (List.mem_cons_of_mem _ hl)
      rw [List.flatMap_cons, List.append_assoc, List.append_assoc, List.singleton_append,
        cutLines_line (hlines line List.mem_cons_self), hrest]

/-- Later bytes leave the complete lines alone and go on with the tail. -/
theorem cutLines_append (front bytes : List UInt8) :
    cutLines (front ++ bytes) =
      ((cutLines front).1 ++ (cutLines ((cutLines front).2 ++ bytes)).1,
        (cutLines ((cutLines front).2 ++ bytes)).2) := by
  obtain ⟨hfront, hlines, -⟩ := cutLines_spec front
  obtain ⟨hrest, hmore, htail⟩ := cutLines_spec ((cutLines front).2 ++ bytes)
  rw [cutLines_eq_iff]
  refine ⟨?_, ?_, htail⟩
  · rw [List.flatMap_append, List.append_assoc, ← hrest, ← List.append_assoc, ← hfront]
  · intro line hline
    rcases List.mem_append.1 hline with h | h
    · exact hlines line h
    · exact hmore line h

/-- Bytes without a line feed go to the front of the first line, or of the tail if there is no
    line. -/
theorem cutLines_append_of_not_mem {line : List UInt8} (h : lineFeed ∉ line)
    (bytes : List UInt8) :
    cutLines (line ++ bytes) =
      match cutLines bytes with
      | ([], tail) => ([], line ++ tail)
      | (first :: lines, tail) => ((line ++ first) :: lines, tail) := by
  obtain ⟨hbytes, hlines, htail⟩ := cutLines_spec bytes
  rcases hcut : cutLines bytes with ⟨_ | ⟨first, lines⟩, tail⟩
  · rw [hcut] at hbytes htail
    rw [cutLines_eq_iff, hbytes]
    simpa [h] using htail
  · rw [hcut] at hbytes hlines htail
    rw [cutLines_eq_iff, hbytes]
    refine ⟨by simp, ?_, htail⟩
    simpa [h] using hlines

/-! ## What is known of an unfinished stream -/

/-- The frames that are known once some bytes of a stream have arrived: one for each complete
    line, and the mark of an unfinished line that is over the limit already. -/
def told (maxBytes : Nat) (bytes : List UInt8) : List Frame :=
  (cutLines bytes).1.map (ofLimited maxBytes) ++
    (if maxBytes < (cutLines bytes).2.length then [.tooLarge] else [])

theorem told_of_not_mem {line : List UInt8} (h : lineFeed ∉ line) (maxBytes : Nat) :
    told maxBytes line = if maxBytes < line.length then [.tooLarge] else [] := by
  rw [told, cutLines_of_not_mem h, List.map_nil, List.nil_append]

/-- What is known of a stream is what its lines tell and what its tail tells. -/
theorem told_eq_lines_append (maxBytes : Nat) (bytes : List UInt8) :
    told maxBytes bytes =
      (cutLines bytes).1.map (ofLimited maxBytes) ++ told maxBytes (cutLines bytes).2 := by
  rw [told_of_not_mem (cutLines_spec bytes).2.2, told]

theorem told_append (maxBytes : Nat) (front bytes : List UInt8) :
    told maxBytes (front ++ bytes) =
      (cutLines front).1.map (ofLimited maxBytes) ++
        told maxBytes ((cutLines front).2 ++ bytes) := by
  simp only [told, cutLines_append front bytes, List.map_append, List.append_assoc]

end Frame

/-! ## Complete lines in the buffer -/

namespace Framer

open DepSpec.Frame

/-- Nothing that the framer takes for looked at holds a line feed. -/
def IsScanned (f : Framer) : Prop :=
  f.scanned ≤ f.buffer.length ∧ lineFeed ∉ f.buffer.take f.scanned

theorem findIdx?_lineFeed_of_not_mem {bytes : List UInt8} (h : lineFeed ∉ bytes) :
    bytes.findIdx? (· == lineFeed) = none := by
  rw [List.findIdx?_eq_none_iff]
  intro b hb
  exact beq_false_of_ne fun heq => h (heq ▸ hb)

theorem findIdx?_lineFeed_line {line : List UInt8} (h : lineFeed ∉ line) (rest : List UInt8) :
    (line ++ lineFeed :: rest).findIdx? (· == lineFeed) = some line.length := by
  rw [List.findIdx?_append, findIdx?_lineFeed_of_not_mem h, List.findIdx?_cons]
  simp

/-- Looking behind the scanned bytes finds the first line feed of the whole buffer. -/
theorem lineEnd?_eq_findIdx? {f : Framer} (h : f.IsScanned) :
    f.lineEnd? = f.buffer.findIdx? (· == lineFeed) := by
  obtain ⟨hle, hnot⟩ := h
  have hlen : (f.buffer.take f.scanned).length = f.scanned := by
    rw [List.length_take]
    omega
  calc f.lineEnd?
      = ((f.buffer.drop f.scanned).findIdx? (· == lineFeed)).map (· + f.scanned) := by
        simp only [lineEnd?, Nat.add_comm]
    _ = (f.buffer.take f.scanned ++ f.buffer.drop f.scanned).findIdx? (· == lineFeed) := by
        rw [List.findIdx?_append, findIdx?_lineFeed_of_not_mem hnot, hlen, Option.none_or]
    _ = f.buffer.findIdx? (· == lineFeed) := by rw [List.take_append_drop]

theorem lineEnd?_of_not_mem {f : Framer} (h : f.IsScanned) (hnot : lineFeed ∉ f.buffer) :
    f.lineEnd? = none := by
  rw [lineEnd?_eq_findIdx? h, findIdx?_lineFeed_of_not_mem hnot]

theorem lineEnd?_line {f : Framer} (h : f.IsScanned) {line rest : List UInt8}
    (hbuffer : f.buffer = line ++ lineFeed :: rest) (hline : lineFeed ∉ line) :
    f.lineEnd? = some line.length := by
  rw [lineEnd?_eq_findIdx? h, hbuffer, findIdx?_lineFeed_line hline]

theorem isScanned_skipLine (f : Framer) (pos : Nat) : (f.skipLine pos).IsScanned := by
  simp [IsScanned, skipLine]

/-- **Taking the lines off the buffer** gives the frames of its lines, but none for the rest of a
    line that was told before, and leaves the tail. -/
theorem takeLines_spec (f : Framer) (h : f.IsScanned) :
    f.takeLines.1 =
        ((cutLines f.buffer).1.drop f.discarding.toNat).map (ofLimited f.maxBytes) ∧
      ∃ n, f.takeLines.2 =
        { f with
          buffer := (cutLines f.buffer).2, scanned := n,
          discarding := f.discarding && (cutLines f.buffer).1.isEmpty } := by
  -- The recursion is on the buffer: skipping a line leaves a shorter one, with nothing scanned.
  induction hn : f.buffer.length using Nat.strongRecOn generalizing f with
  | ind n ih =>
    rcases not_mem_or_eq_line f.buffer with hnot | ⟨line, rest, hbuffer, hline⟩
    · rw [takeLines, cutLines_of_not_mem hnot]
      split
      · exact ⟨by simp, f.scanned, by simp⟩
      · next hend => simp [lineEnd?_of_not_mem h hnot] at hend
    · have hskip : (f.skipLine line.length).buffer = rest := by
        simp [skipLine, hbuffer]
      have hlt : rest.length < n := by
        rw [← hn, hbuffer, List.length_append, List.length_cons]
        omega
      obtain ⟨hframes, m, hstate⟩ :=
        ih rest.length hlt (f.skipLine line.length) (isScanned_skipLine f _) (by rw [hskip])
      rw [takeLines]
      split
      · next hend => simp [lineEnd?_line h hbuffer hline] at hend
      · next pos hend =>
        obtain rfl : line.length = pos := by
          simpa [lineEnd?_line h hbuffer hline] using hend
        rw [hframes, hstate, hskip, hbuffer, cutLines_line hline]
        refine ⟨?_, m, by simp [skipLine]⟩
        by_cases hdiscarding : f.discarding = true
        · simp [lineFrame?, hdiscarding, skipLine]
        · by_cases hlong : f.maxBytes < line.length
          · simp [lineFrame?, hdiscarding, skipLine, ofLimited, hlong]
          · simp [lineFrame?, hdiscarding, skipLine, ofLimited, hlong, hbuffer]

/-! ## A read -/

/-- The state of a framer with line framing in the middle of a line. While the line fits, the
    buffer is the line; behind the limit the buffer holds some bytes of it that nobody will look
    at again. -/
structure Holds (f : Framer) (maxBytes : Nat) (line : List UInt8) : Prop where
  framing : f.framing = .newline
  maxBytes_eq : f.maxBytes = maxBytes
  scanned : f.scanned = f.buffer.length
  length_le : f.buffer.length ≤ maxBytes
  not_mem : lineFeed ∉ f.buffer
  discarding : f.discarding = decide (maxBytes < line.length)
  buffer : f.discarding = false → f.buffer = line

theorem holds_fresh (maxBytes : Nat) : (fresh .newline maxBytes).Holds maxBytes [] where
  framing := rfl
  maxBytes_eq := rfl
  scanned := rfl
  length_le := Nat.zero_le _
  not_mem := List.not_mem_nil
  discarding := rfl
  buffer := fun _ => rfl

/-- With a read behind it, the buffer is still scanned as far as the framer says. -/
theorem Holds.isScanned {f : Framer} {maxBytes : Nat} {line : List UInt8}
    (h : f.Holds maxBytes line) (bytes : List UInt8) :
    IsScanned { f with buffer := f.buffer ++ bytes } := by
  constructor
  · rw [h.scanned, List.length_append]
    omega
  · show lineFeed ∉ (f.buffer ++ bytes).take f.scanned
    rw [h.scanned, List.take_left]
    exact h.not_mem

/-- What the limit makes of a buffer without line feeds. -/
theorem holds_limit (f : Framer) {maxBytes : Nat} (line : List UInt8)
    (hframing : f.framing = .newline) (hmax : f.maxBytes = maxBytes)
    (hnot : lineFeed ∉ f.buffer) (hlong : f.discarding = true → maxBytes < line.length)
    (hbuffer : f.discarding = false → f.buffer = line) :
    f.limit.1 = (if maxBytes < line.length ∧ f.discarding = false then [.tooLarge] else []) ∧
      f.limit.2.Holds maxBytes line := by
  subst hmax
  unfold limit
  cases hd : f.discarding with
  | true =>
    -- The line was told as too large before, so a full buffer gives no second mark.
    have hline : f.maxBytes < line.length := hlong hd
    split
    · refine ⟨by simp, hframing, rfl, rfl, Nat.zero_le _, List.not_mem_nil, ?_, ?_⟩
      · simp [hline]
      · simp
    · next hle =>
      refine ⟨by simp, hframing, rfl, rfl, Nat.le_of_not_lt hle, hnot, ?_, ?_⟩
      · simp [hline]
      · simp
  | false =>
    obtain rfl : f.buffer = line := hbuffer hd
    split
    · next hlt =>
      refine ⟨by simp [hlt], hframing, rfl, rfl, Nat.zero_le _, List.not_mem_nil, ?_, ?_⟩
      · simp [hlt]
      · simp
    · next hle =>
      refine ⟨by simp [hle], hframing, rfl, rfl, Nat.le_of_not_lt hle, hnot, ?_, ?_⟩
      · simp [hle]
      · simp

theorem push_newline {f : Framer} (h : f.framing = .newline) (bytes : List UInt8) :
    f.push bytes =
      let taken := takeLines { f with buffer := f.buffer ++ bytes }
      (taken.1 ++ taken.2.limit.1, taken.2.limit.2) := by
  unfold push
  rw [h]

/-- **One read** adds the frames that its bytes make known, and the framer holds the line that is
    unfinished then. -/
theorem told_push {f : Framer} {maxBytes : Nat} {line : List UInt8} (h : f.Holds maxBytes line)
    (hline : lineFeed ∉ line) (bytes : List UInt8) :
    told maxBytes line ++ (f.push bytes).1 = told maxBytes (line ++ bytes) ∧
      (f.push bytes).2.Holds maxBytes (cutLines (line ++ bytes)).2 := by
  obtain ⟨hframes, n, hstate⟩ := takeLines_spec _ (h.isScanned bytes)
  have hnot := (cutLines_spec (f.buffer ++ bytes)).2.2
  have hbuf := cutLines_append_of_not_mem h.not_mem bytes
  have hall := cutLines_append_of_not_mem hline bytes
  rw [push_newline h.framing, told_of_not_mem hline, told]
  dsimp only at hframes hstate ⊢
  rw [hframes, hstate, h.maxBytes_eq]
  rcases hcut : cutLines bytes with ⟨_ | ⟨first, lines⟩, tail⟩ <;> rw [hcut] at hbuf hall <;>
    dsimp only at hbuf hall <;> rw [hbuf] at hnot ⊢ <;> rw [hall]
  · -- The line goes on to the end of the read.
    simp only [List.isEmpty_nil, Bool.and_true, List.drop_nil, List.map_nil, List.nil_append]
    obtain ⟨htold, hholds⟩ := holds_limit
      { f with maxBytes := maxBytes, buffer := f.buffer ++ tail, scanned := n } (line ++ tail)
      h.framing rfl hnot
      (fun hd => by
        have hlt : maxBytes < line.length := by simpa [h.discarding] using hd
        show maxBytes < (line ++ tail).length
        rw [List.length_append]
        omega)
      (fun hd => congrArg (· ++ tail) (h.buffer hd))
    refine ⟨?_, hholds⟩
    rw [htold]
    by_cases hlt : maxBytes < line.length
    · have hlong : maxBytes < line.length + tail.length := by omega
      simp [h.discarding, hlt, hlong]
    · simp [h.discarding, hlt]
  · -- The line ends within the read, and another one begins.
    simp only [List.isEmpty_cons, Bool.and_false]
    obtain ⟨htold, hholds⟩ := holds_limit
      { f with maxBytes := maxBytes, buffer := tail, scanned := n, discarding := false } tail
      h.framing rfl hnot (fun hd => nomatch hd) (fun _ => rfl)
    refine ⟨?_, hholds⟩
    rw [htold]
    by_cases hlt : maxBytes < line.length
    · have hlong : maxBytes < line.length + first.length := by omega
      simp [h.discarding, hlt, ofLimited, hlong]
    · have hd : f.discarding = false := by simp [h.discarding, hlt]
      simp [hd, hlt, h.buffer hd]

/-! ## Any number of reads -/

theorem pushAll_append (f : Framer) (reads more : List (List UInt8)) :
    f.pushAll (reads ++ more) =
      ((f.pushAll reads).1 ++ ((f.pushAll reads).2.pushAll more).1,
        ((f.pushAll reads).2.pushAll more).2) := by
  induction reads generalizing f with
  | nil => simp [pushAll]
  | cons read reads ih => simp [pushAll, ih]

/-- Reads add the frames that all their bytes together make known. -/
theorem told_pushAll {f : Framer} {maxBytes : Nat} {line : List UInt8} (h : f.Holds maxBytes line)
    (hline : lineFeed ∉ line) (reads : List (List UInt8)) :
    told maxBytes line ++ (f.pushAll reads).1 = told maxBytes (line ++ reads.flatten) ∧
      (f.pushAll reads).2.Holds maxBytes (cutLines (line ++ reads.flatten)).2 := by
  induction reads generalizing f line with
  | nil =>
    rw [List.flatten_nil, List.append_nil, cutLines_of_not_mem hline]
    exact ⟨List.append_nil _, h⟩
  | cons bytes reads ih =>
    obtain ⟨hpush, hholds⟩ := told_push h hline bytes
    obtain ⟨hrest, hheld⟩ := ih hholds (cutLines_spec (line ++ bytes)).2.2
    rw [List.flatten_cons, ← List.append_assoc]
    refine ⟨?_, ?_⟩
    · calc told maxBytes line ++ (f.pushAll (bytes :: reads)).1
          = told maxBytes (line ++ bytes) ++ ((f.push bytes).2.pushAll reads).1 := by
            rw [← hpush, List.append_assoc, pushAll]
        _ = (cutLines (line ++ bytes)).1.map (ofLimited maxBytes) ++
              told maxBytes ((cutLines (line ++ bytes)).2 ++ reads.flatten) := by
            rw [told_eq_lines_append, List.append_assoc, hrest]
        _ = told maxBytes (line ++ bytes ++ reads.flatten) := (told_append ..).symm
    · rw [cutLines_append]
      exact hheld

/-- The end of a stream adds the frame of its tail, unless that was told before. -/
theorem told_finish {f : Framer} {maxBytes : Nat} {bytes : List UInt8}
    (h : f.Holds maxBytes (cutLines bytes).2) :
    told maxBytes bytes ++ f.finish.1.toList = ofStream maxBytes bytes := by
  rw [told, ofStream, List.append_assoc]
  congr 1
  by_cases hlong : maxBytes < (cutLines bytes).2.length
  · have hne : (cutLines bytes).2 ≠ [] := fun hnil => by simp [hnil] at hlong
    simp [finish, h.discarding, hlong, hne, ofLimited]
  · have hd : f.discarding = false := by simp [h.discarding, hlong]
    by_cases hnil : (cutLines bytes).2 = []
    · simp [finish, hd, h.buffer hd, hnil]
    · simp [finish, h.framing, hd, h.buffer hd, hlong, hnil, ofLimited]

theorem Holds.finish_eq_fresh {f : Framer} {maxBytes : Nat} {line : List UInt8}
    (h : f.Holds maxBytes line) : f.finish.2 = fresh .newline maxBytes := by
  rw [finish, fresh, h.framing, h.maxBytes_eq]

/-- **However a stream is cut into reads, its frames are those of the whole stream**, and the end
    of the stream leaves a framer that has seen nothing. -/
theorem frames_eq_ofStream (maxBytes : Nat) (reads : List (List UInt8)) :
    let cut := (fresh .newline maxBytes).pushAll reads
    cut.1 ++ cut.2.finish.1.toList = ofStream maxBytes reads.flatten ∧
      cut.2.finish.2 = fresh .newline maxBytes := by
  obtain ⟨htold, hholds⟩ := told_pushAll (holds_fresh maxBytes) List.not_mem_nil reads
  rw [List.nil_append] at htold hholds
  refine ⟨?_, hholds.finish_eq_fresh⟩
  rw [← told_finish hholds, ← htold]
  simp [told, cutLines]

end Framer

namespace Frame

/-! ## The text of a line -/

theorem withoutReturn_concat (line : List UInt8) :
    withoutReturn (line ++ [carriageReturn]) = line := by
  simp [withoutReturn]

theorem withoutReturn_eq_self {line : List UInt8} (h : line.getLast? ≠ some carriageReturn) :
    withoutReturn line = line := by
  rw [withoutReturn, if_neg h]

/-- **What the frame of a line is**: a request. One carriage return at the end of the line does not
    belong to it. It is the text whose bytes the line is made of, and where they are no text a byte
    that begins no character gives the replacement character, in front of what the others give. -/
theorem ofLine_spec (line : List UInt8) :
    ofLine (line ++ [carriageReturn]) = .request (String.ofList (decodeText line)) ∧
      (line.getLast? ≠ some carriageReturn →
        ofLine line = .request (String.ofList (decodeText line))) ∧
      (∀ cs, line = encodeText cs → decodeText line = cs) ∧
      ∀ cs b bytes, line = encodeText cs ++ b :: bytes → isStray b = true →
        decodeText line = cs ++ replacementChar :: decodeText bytes := by
  refine ⟨?_, ?_, ?_, ?_⟩
  · rw [ofLine, withoutReturn_concat]
  · intro hlast
    rw [ofLine, withoutReturn_eq_self hlast]
  · rintro cs rfl
    exact decode_encode cs
  · rintro cs b bytes rfl hstray
    rw [decodeText_append, decodeText_stray hstray]

/-- A line with two carriage returns at its end keeps one. -/
example : ofLine [97, 13, 13] = .request "a\r" := by decide +kernel

/-- A line with a byte that no text holds, and with a character that is cut off. -/
example : ofLine [97, 0xFF, 98, 0xE2, 0x82] = .request "a\uFFFDb\uFFFD" := by decide +kernel

end Frame

end DepSpec
