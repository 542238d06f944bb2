import DepSpec.Proofs.Service.Framing
import DepSpec.Proofs.Service.ResponseLines
import DepSpec.Service.Asking
import DepSpec.Service.Connection

set_option autoImplicit false

/-! # What an ask sends and what it is told

The two lines of one ask. A specifier without line breaks is sent as one line, whose frame is the
specifier itself, or the mark of a request that is too large (`Service.frameOf`). Several of them
are as many lines, and nothing behind (`Frame.told_requests`). The answer to a frame is one line as
well, however it is cut (`LineReader.next_line`), and the client takes the outcome from it
(`Client.answer_lineBytes`). `Service.reply` says what that makes of an ask as a whole. -/

namespace DepSpec

open Text

/-! ## The request -/

namespace Client

theorem not_mem_of_isOneLine {spec : String} (h : isOneLine spec = true) :
    lineFeed ∉ encodeText spec.toList ∧ carriageReturn ∉ encodeText spec.toList := by
  have hbreaks : ∀ c ∈ spec.toList, c ≠ '\n' ∧ c ≠ '\r' := by
    simpa [isOneLine] using h
  constructor
  · exact not_mem_encodeText (c := '\n') (by decide) fun hmem => (hbreaks _ hmem).1 rfl
  · exact not_mem_encodeText (c := '\r') (by decide) fun hmem => (hbreaks _ hmem).2 rfl

/-- What is sent to ask for some specifiers, one after the other: a line for each that is one. -/
def requests (specs : List String) : List UInt8 :=
  (specs.filter isOneLine).flatMap fun spec => encodeText spec.toList ++ [lineFeed]

theorem requests_append (specs more : List String) :
    requests (specs ++ more) = requests specs ++ requests more := by
  rw [requests, List.filter_append, List.flatMap_append]
  rfl

theorem requests_singleton {spec : String} (h : isOneLine spec = true) :
    requests [spec] = encodeText spec.toList ++ [lineFeed] := by
  rw [requests, List.filter_cons_of_pos h]
  exact List.append_nil _

end Client

/-- A line without carriage returns is the text that was encoded. -/
theorem Frame.ofLine_encodeText {spec : String} (h : Client.isOneLine spec = true) :
    ofLine (encodeText spec.toList) = .request spec := by
  have hreturn : (encodeText spec.toList).getLast? ≠ some carriageReturn := by
    intro hlast
    exact (Client.not_mem_of_isOneLine h).2 (List.mem_of_getLast? hlast)
  rw [ofLine, withoutReturn_eq_self hreturn, decode_encode, String.ofList_toList]

namespace Service

variable (s : Service)

/-- The frame that the service makes of a specifier without line breaks. -/
def frameOf (spec : String) : Frame := Frame.ofLimited s.maxBytes (encodeText spec.toList)

/-- The frames of those of some specifiers that are sent. -/
def framesOf (specs : List String) : List Frame := (specs.filter Client.isOneLine).map s.frameOf

theorem framesOf_append (specs more : List String) :
    s.framesOf (specs ++ more) = s.framesOf specs ++ s.framesOf more := by
  rw [framesOf, List.filter_append, List.map_append]
  rfl

theorem framesOf_singleton {spec : String} (h : Client.isOneLine spec = true) :
    s.framesOf [spec] = [s.frameOf spec] := by
  rw [framesOf, List.filter_cons_of_pos h]
  rfl

/-- What a client is told about a specifier: that it cannot be asked, that it is too large, or what
    became of it. -/
def reply (spec : String) : Except ClientError Answer :=
  if !Client.isOneLine spec then .error (.lineBreak spec)
  else if s.maxBytes < byteLength spec.toList then
    .ok (.error (Outcome.tooLarge s.settings.maxRequestBytes).wireText)
  else .ok (Outcome.answer (s.caps.classify spec))

/-- Whether asking for a specifier is fatal to the service. -/
def isFatalAsk (spec : String) : Bool := Client.isOneLine spec && s.isFatal (s.frameOf spec)

variable {s}

theorem exists_isFatal_framesOf {specs : List String} :
    (∃ frame ∈ s.framesOf specs, s.isFatal frame = true) ↔
      ∃ spec ∈ specs, s.isFatalAsk spec = true := by
  simp only [framesOf, isFatalAsk, List.mem_map, List.mem_filter, Bool.and_eq_true]
  constructor
  · rintro ⟨_, ⟨spec, ⟨hspec, hone⟩, rfl⟩, hfatal⟩
    exact ⟨spec, hspec, hone, hfatal⟩
  · rintro ⟨spec, hspec, hone, hfatal⟩
    exact ⟨_, ⟨spec, ⟨hspec, hone⟩, rfl⟩, hfatal⟩

theorem reply_of_isOneLine {spec : String} (h : Client.isOneLine spec = true) :
    s.reply spec = .ok (s.outcome (s.frameOf spec)).answer := by
  rw [reply, h, frameOf, Frame.ofLimited, length_encodeText]
  by_cases hlong : s.maxBytes < byteLength spec.toList
  · simp only [hlong, if_true]
    rfl
  · simp only [hlong, if_false, Frame.ofLine_encodeText h]
    rfl

end Service

/-! ## The frames of several requests -/

namespace Frame

/-- Later bytes take nothing back. -/
theorem told_prefix (maxBytes : Nat) (front bytes : List UInt8) :
    told maxBytes front <+: told maxBytes (front ++ bytes) := by
  have htold (reads : List (List UInt8)) :=
    (Framer.told_pushAll (Framer.holds_fresh maxBytes) List.not_mem_nil reads).1
  have hfront := htold [front]
  have hall := htold [front, bytes]
  rw [show [front, bytes] = [front] ++ [bytes] from rfl, Framer.pushAll_append,
    List.flatten_append] at hall
  simp only [List.flatten_singleton, List.nil_append] at hfront hall
  rw [← hfront, ← hall, ← List.append_assoc]
  exact List.prefix_append _ _

/-- Every request is a complete line. -/
theorem told_requests (s : Service) (specs : List String) :
    told s.maxBytes (Client.requests specs) = s.framesOf specs := by
  have hcut : cutLines (Client.requests specs) =
      ((specs.filter Client.isOneLine).map fun spec => encodeText spec.toList, []) := by
    refine cutLines_eq_iff.2 ⟨?_, ?_, List.not_mem_nil⟩
    · rw [List.flatMap_map, List.append_nil]
      rfl
    · intro line hline
      obtain ⟨spec, hspec, rfl⟩ := List.mem_map.1 hline
      exact (Client.not_mem_of_isOneLine (List.mem_filter.1 hspec).2).1
  rw [told, hcut, List.map_map]
  exact List.append_nil _

end Frame

/-! ## The answer -/

/-- A line is not complete before its last byte. -/
theorem lineFeed_not_mem_of_append {front back line : List UInt8} (hline : lineFeed ∉ line)
    (h : front ++ back = line ++ [lineFeed]) (hback : back ≠ []) : lineFeed ∉ front := by
  obtain ⟨init, last, rfl⟩ : ∃ init last, back = init ++ [last] :=
    ⟨back.dropLast, back.getLast hback, (List.dropLast_concat_getLast hback).symm⟩
  rw [← List.append_assoc] at h
  obtain ⟨rfl, -⟩ := List.append_inj' h rfl
  exact fun hmem => hline (List.mem_append_left _ hmem)

theorem cutLine?_of_not_mem {bytes : List UInt8} (h : lineFeed ∉ bytes) :
    cutLine? bytes = none := by
  have hdrop : bytes.dropWhile (· != lineFeed) = [] := by
    rw [← List.append_nil bytes, List.dropWhile_append_of_pos]
    · rfl
    · exact fun b hb => bne_iff_ne.2 fun heq => h (heq ▸ hb)
  rw [cutLine?, hdrop]

theorem cutLine?_line {line : List UInt8} (h : lineFeed ∉ line) :
    cutLine? (line ++ [lineFeed]) = some (line ++ [lineFeed], []) := by
  have hall : ∀ b ∈ line, (b != lineFeed) = true :=
    fun b hb => bne_iff_ne.2 fun heq => h (heq ▸ hb)
  have hdrop : (line ++ [lineFeed]).dropWhile (· != lineFeed) = [lineFeed] := by
    rw [List.dropWhile_append_of_pos hall]
    rfl
  have htake : (line ++ [lineFeed]).takeWhile (· != lineFeed) = line := by
    rw [List.takeWhile_append_of_pos hall]
    exact List.append_nil line
  rw [cutLine?, hdrop, htake]

namespace LineReader

/-- What the reader has of the line that it reads. -/
def heard (r : LineReader) : List UInt8 := r.buffer ++ r.incoming.flatten

theorem heard_expect (r : LineReader) (read : List UInt8) :
    (r.expect [read]).heard = r.heard ++ read := by
  simp [heard, expect]

theorem nextFrom_line {buffer line read : List UInt8} {reads : List (List UInt8)}
    (hnot : lineFeed ∉ buffer ++ reads.flatten) (hline : lineFeed ∉ line)
    (hsplit : buffer ++ reads.flatten ++ read = line ++ [lineFeed]) :
    nextFrom buffer (reads ++ [read]) = (line ++ [lineFeed], {}) := by
  induction reads generalizing buffer with
  | nil =>
    rw [List.flatten_nil, List.append_nil] at hnot hsplit
    rw [List.nil_append, nextFrom, cutLine?_of_not_mem hnot]
    dsimp only
    rw [hsplit, nextFrom, cutLine?_line hline]
  | cons first reads ih =>
    rw [List.flatten_cons, ← List.append_assoc] at hnot hsplit
    have hbuffer : lineFeed ∉ buffer := fun h =>
      hnot (List.mem_append_left _ (List.mem_append_left _ h))
    rw [List.cons_append, nextFrom, cutLine?_of_not_mem hbuffer]
    exact ih hnot hsplit

/-- A line is read as a whole once its line feed is there. -/
theorem next_line {r : LineReader} {line read : List UInt8} (hnot : lineFeed ∉ r.heard)
    (hline : lineFeed ∉ line) (hsplit : r.heard ++ read = line ++ [lineFeed]) :
    (r.expect [read]).next = (line ++ [lineFeed], {}) :=
  nextFrom_line hnot hline hsplit

/-- However it is cut. -/
theorem next_reads {line : List UInt8} (hline : lineFeed ∉ line) {reads : List (List UInt8)}
    (hreads : ∀ read ∈ reads, read ≠ []) (hflatten : reads.flatten = line ++ [lineFeed]) :
    (({} : LineReader).expect reads).next = (line ++ [lineFeed], {}) := by
  rcases List.eq_nil_or_concat reads with rfl | ⟨front, read, rfl⟩
  · simp at hflatten
  · have hsplit : (({} : LineReader).expect front).heard ++ read = line ++ [lineFeed] := by
      simpa [heard, expect] using hflatten
    have hnot := lineFeed_not_mem_of_append hline hsplit (hreads read (by simp))
    simpa [expect] using next_line hnot hline hsplit

end LineReader

/-- The bytes of the answer to a frame. -/
def Service.lineBytes (s : Service) (frame : Frame) : List UInt8 := encodeText (s.line frame).toList

theorem Service.lineBytes_eq (s : Service) (frame : Frame) :
    ∃ line, lineFeed ∉ line ∧ s.lineBytes frame = line ++ [lineFeed] := by
  have hnot := Outcome.lineFeed_not_mem_chars (s.outcome frame) s.settings.envelope
  refine ⟨_, not_mem_encodeText (c := '\n') (by decide) hnot, ?_⟩
  rw [lineBytes, Service.line, Outcome.toList_line, encodeText, List.flatMap_append]
  rfl

/-- The client takes from a line what was written on it. -/
theorem Client.answer_lineBytes {s : Service} (henvelope : s.settings.envelope = .result)
    (frame : Frame) : answer (s.lineBytes frame) = .ok (s.outcome frame).answer := by
  obtain ⟨line, -, hline⟩ := s.lineBytes_eq frame
  have hne : s.lineBytes frame ≠ [] := by
    rw [hline]
    exact List.concat_ne_nil _ _
  have hdecode : Answer.ofLine? (String.ofList (decodeText (s.lineBytes frame))) =
      some (s.outcome frame).answer := by
    rw [Service.lineBytes, decode_encode, String.ofList_toList, Service.line, henvelope]
    exact Outcome.answer_ofLine?_line _
  rw [answer, if_neg hne]
  simp only [hdecode]

end DepSpec
