import DepSpec.Proofs.Service.LoopbackAsks
import DepSpec.Proofs.Text.Pieces

set_option autoImplicit false

/-! # The answer to a text in a stream

A text without line feeds may stand anywhere in the stream of a connection, behind other lines and
before others, and with a carriage return at its end. Its line becomes a request for a text with the
same trimming (`Frame.AsksWithin.ofStream`), and as classification looks at nothing else, its answer
is the one to the text itself. No connection writes another answer in its place
(`Connection.Serves.written_of_asks`), and a server that serves reads does write it, however they are
cut (`Server.written_serveReads`). -/

namespace DepSpec

open Text

/-! ## What classification looks at -/

/-- Texts with the same trimming are classified alike. -/
theorem Capabilities.classify_congr (caps : Capabilities) {raw text : String}
    (h : trim raw.toList = trim text.toList) : caps.classify raw = caps.classify text := by
  rw [classify, classify, plan, plan, trimmed, trimmed, h]

theorem Service.line_congr (s : Service) {raw text : String}
    (h : trim raw.toList = trim text.toList) : s.line (.request raw) = s.line (.request text) := by
  rw [line, line, outcome, outcome, s.caps.classify_congr h]

namespace Frame

/-! ## The request on a line -/

theorem encodeText_concat (cs : List Char) (c : Char) :
    encodeText (cs ++ [c]) = encodeText cs ++ String.utf8EncodeChar c := by
  rw [encodeText, List.flatMap_append, List.flatMap_singleton]
  rfl

theorem encodeText_ne_nil {cs : List Char} (h : cs ≠ []) : encodeText cs ≠ [] := by
  intro hnil
  have hcs := decode_encode cs
  rw [hnil] at hcs
  exact h (hcs.symm.trans (decode_encode []))

/-- A line that encodes a text requests the text, or all of it but a carriage return at its end. -/
theorem ofLine_encodeText_trim (cs : List Char) :
    ∃ text, ofLine (encodeText cs) = .request text ∧ trim text.toList = trim cs := by
  rcases List.eq_nil_or_concat cs with rfl | ⟨front, c, rfl⟩
  · exact ⟨"", congrArg (fun cs => request (String.ofList cs)) (decode_encode []), rfl⟩
  rw [List.concat_eq_append]
  by_cases hc : c = '\r'
  · subst hc
    refine ⟨String.ofList front, ?_, ?_⟩
    · have hreturn : encodeText (front ++ ['\r']) = encodeText front ++ [carriageReturn] :=
        encodeText_concat front '\r'
      rw [ofLine, hreturn, withoutReturn_concat, decode_encode]
    · rw [String.toList_ofList, trim_concat front (by decide)]
  · refine ⟨String.ofList (front ++ [c]), ?_, by rw [String.toList_ofList]⟩
    have hlast : (encodeText (front ++ [c])).getLast? ≠ some carriageReturn := by
      rw [encodeText_concat, List.getLast?_append_of_ne_nil _ String.utf8EncodeChar_ne_nil]
      intro hreturn
      have hcode := toNat_eq_of_mem_utf8EncodeChar (List.mem_of_getLast? hreturn) (by decide)
      exact hc (Char.toNat_inj.1 hcode)
    rw [ofLine, withoutReturn_eq_self hlast, decode_encode]

/-! ## The frames of a stream -/

/-- A stream that asks for a text behind some lines: on a line, with or without a carriage return
    at its end, or in what is left at the end of the stream, which then must come (`mustEnd`). -/
inductive AsksFor (spec : String) (before : List (List UInt8)) :
    (mustEnd : Bool) → List UInt8 → Prop
  | line (mustEnd : Bool) (after : List UInt8) :
    AsksFor spec before mustEnd
      (before.flatMap (· ++ [lineFeed]) ++ (encodeText spec.toList ++ lineFeed :: after))
  | returned (mustEnd : Bool) (after : List UInt8) :
    AsksFor spec before mustEnd (before.flatMap (· ++ [lineFeed]) ++
      (encodeText spec.toList ++ carriageReturn :: lineFeed :: after))
  | tail (hne : spec ≠ "") :
    AsksFor spec before true (before.flatMap (· ++ [lineFeed]) ++ encodeText spec.toList)

/-- Such a stream where the text is free of line feeds, whole lines stand before it, and a frame has
    room for it and a carriage return. -/
structure AsksWithin (maxBytes : Nat) (spec : String) (before : List (List UInt8)) (mustEnd : Bool)
    (bytes : List UInt8) : Prop where
  asksFor : AsksFor spec before mustEnd bytes
  oneLine : '\n' ∉ spec.toList
  lines : ∀ line ∈ before, lineFeed ∉ line
  limit : byteLength spec.toList + 1 ≤ maxBytes

theorem cutLines_lines {before : List (List UInt8)} (h : ∀ line ∈ before, lineFeed ∉ line)
    (bytes : List UInt8) :
    cutLines (before.flatMap (· ++ [lineFeed]) ++ bytes) =
      (before ++ (cutLines bytes).1, (cutLines bytes).2) := by
  have hcut : cutLines (before.flatMap (· ++ [lineFeed])) = (before, []) :=
    cutLines_eq_iff.2 ⟨(List.append_nil _).symm, h, List.not_mem_nil⟩
  rw [cutLines_append, hcut]
  rfl

variable {maxBytes : Nat} {spec : String} {before : List (List UInt8)} {mustEnd : Bool}
  {bytes : List UInt8}

/-- The text is on a line behind those before it, or on the unfinished line behind them. -/
theorem AsksWithin.cutLines_eq (h : AsksWithin maxBytes spec before mustEnd bytes) :
    (∃ line text more tail, cutLines bytes = (before ++ line :: more, tail) ∧
        line.length ≤ byteLength spec.toList + 1 ∧ ofLine line = .request text ∧
        trim text.toList = trim spec.toList) ∨
      (mustEnd = true ∧ spec ≠ "" ∧ cutLines bytes = (before, encodeText spec.toList)) := by
  have hline : lineFeed ∉ encodeText spec.toList :=
    not_mem_encodeText (c := '\n') (by decide) h.oneLine
  have hbefore := h.lines
  obtain ⟨text, htext, htrim⟩ := ofLine_encodeText_trim spec.toList
  cases h.asksFor with
  | line _ after =>
    left
    refine ⟨encodeText spec.toList, text, (cutLines after).1, (cutLines after).2, ?_, ?_, htext,
      htrim⟩
    · rw [cutLines_lines hbefore, cutLines_line hline]
    · rw [length_encodeText]
      exact Nat.le_succ _
  | returned _ after =>
    left
    have hreturned : lineFeed ∉ encodeText spec.toList ++ [carriageReturn] := by
      rw [List.mem_append, not_or]
      exact ⟨hline, by decide⟩
    refine ⟨encodeText spec.toList ++ [carriageReturn], spec, (cutLines after).1,
      (cutLines after).2, ?_, ?_, ?_, rfl⟩
    · rw [List.append_cons (encodeText spec.toList), cutLines_lines hbefore,
        cutLines_line hreturned]
    · rw [List.length_append, length_encodeText, List.length_singleton]
    · rw [ofLine, withoutReturn_concat, decode_encode, String.ofList_toList]
  | tail hne =>
    right
    refine ⟨rfl, hne, ?_⟩
    rw [cutLines_lines hbefore, cutLines_of_not_mem hline, List.append_nil]

theorem ofLimited_of_le {line : List UInt8} (h : line.length ≤ maxBytes) :
    ofLimited maxBytes line = ofLine line := if_neg (Nat.not_lt.2 h)

theorem getElem?_map_append_cons {α β : Type} (f : α → β) (before more : List α) (a : α)
    (others : List β) : ((before ++ a :: more).map f ++ others)[before.length]? = some (f a) := by
  simp

/-- **The frame of a text in a stream** is in its place, and requests a text with the same
    trimming. -/
theorem AsksWithin.ofStream (h : AsksWithin maxBytes spec before mustEnd bytes) :
    ∃ text, trim text.toList = trim spec.toList ∧
      (ofStream maxBytes bytes)[before.length]? = some (.request text) ∧
      (mustEnd = false → (told maxBytes bytes)[before.length]? = some (.request text)) := by
  rcases h.cutLines_eq with
    ⟨line, text, more, tail, hcut, hlength, htext, htrim⟩ | ⟨hends, hne, hcut⟩
  · have hframe : ofLimited maxBytes line = .request text := by
      rw [ofLimited_of_le (Nat.le_trans hlength h.limit), htext]
    refine ⟨text, htrim, ?_, fun _ => ?_⟩
    · rw [Frame.ofStream, hcut, getElem?_map_append_cons, hframe]
    · rw [told, hcut, getElem?_map_append_cons, hframe]
  · obtain ⟨text, htext, htrim⟩ := ofLine_encodeText_trim spec.toList
    have hlength : (encodeText spec.toList).length ≤ maxBytes := by
      rw [length_encodeText]
      exact Nat.le_of_succ_le h.limit
    have hnil : encodeText spec.toList ≠ [] :=
      encodeText_ne_nil fun h => hne (String.toList_eq_nil_iff.1 h)
    refine ⟨text, htrim, ?_, by simp [hends]⟩
    rw [Frame.ofStream, hcut, if_neg hnil, ofLimited_of_le hlength, htext]
    simp

end Frame

/-! ## The answer on a connection -/

namespace Connection

open DepSpec.Frame

variable {s : Service} {c : Connection} {ended mustEnd : Bool} {done : List Frame} {spec : String}
  {before : List (List UInt8)}

/-- What is written is the answer to the text, once that is reached. -/
theorem Serves.written_of_asks (h : c.Serves s ended done)
    (hframing : s.settings.framing = .newline)
    (hasks : AsksWithin s.maxBytes spec before mustEnd c.reads.flatten) {line : String}
    (hline : c.written[before.length]? = some line) : line = s.line (.request spec) := by
  obtain ⟨text, htrim, hframe, -⟩ := hasks.ofStream
  rw [h.written, List.getElem?_map] at hline
  obtain ⟨frame, hdone, rfl⟩ := Option.map_eq_some_iff.1 hline
  have hprefix : done <+: ofStream s.maxBytes c.reads.flatten := by
    have hframes := h.prefix_told.trans (c.told_prefix_frames s ended)
    rw [frames, hframing] at hframes
    exact hframes
  obtain ⟨hlt, rfl⟩ := List.getElem?_eq_some_iff.1 hdone
  rw [List.prefix_iff_getElem?.1 hprefix _ hlt] at hframe
  rw [Option.some.inj hframe, s.line_congr htrim]

/-- As long as nothing has gone wrong, everything that is known is answered or in the queue. -/
theorem Serves.append_queue (h : c.Serves s ended done) (hfatal : ∀ frame, s.isFatal frame = false)
    (hlost : c.phase ≠ .closed .lost) (hshutdown : c.phase ≠ .closed .shutdown) :
    (c.phase ≠ .reading → ended = true) ∧ done ++ c.queue = c.told s ended := by
  have hdue := h.due
  unfold Due at hdue
  cases hphase : c.phase with
  | reading =>
    rw [hphase] at hdue
    exact ⟨fun hne => absurd rfl hne, hdue.2.1⟩
  | flushing =>
    rw [hphase] at hdue
    exact ⟨fun _ => hdue.1, hdue.2⟩
  | closed why =>
    cases why with
    | finished =>
      rw [hphase] at hdue
      obtain ⟨hended, hdone, hqueue⟩ := hdue
      exact ⟨fun _ => hended, by rw [hqueue, List.append_nil, hdone]⟩
    | fatal =>
      obtain ⟨frame, -, hf⟩ := h.closed_fatal.2 hphase
      rw [hfatal frame] at hf
      cases hf
    | lost => exact absurd hphase hlost
    | shutdown => exact absurd hphase hshutdown

/-- The answer to the text is written or comes from the queue. -/
theorem Serves.line_of_asks (h : c.Serves s ended done)
    (hframing : s.settings.framing = .newline) (hfatal : ∀ frame, s.isFatal frame = false)
    (hasks : AsksWithin s.maxBytes spec before mustEnd c.reads.flatten)
    (hlost : c.phase ≠ .closed .lost) (hshutdown : c.phase ≠ .closed .shutdown)
    (hends : mustEnd = true → c.phase ≠ .reading) :
    (c.written ++ c.queue.map s.line)[before.length]? = some (s.line (.request spec)) := by
  obtain ⟨text, htrim, hstream, htold⟩ := hasks.ofStream
  obtain ⟨hended, hqueue⟩ := h.append_queue hfatal hlost hshutdown
  have hframe : (done ++ c.queue)[before.length]? = some (.request text) := by
    rw [hqueue]
    cases ended with
    | true =>
      rw [told, if_pos rfl, frames, hframing]
      exact hstream
    | false =>
      -- A stream that goes on tells the texts of its lines only.
      have hline : mustEnd = false := by
        cases mustEnd with
        | false => rfl
        | true => exact absurd (hended (hends rfl)) Bool.false_ne_true
      rw [c.told_eq hframing]
      exact htold hline
  rw [h.written, ← List.map_append, List.getElem?_map, hframe, Option.map_some, s.line_congr htrim]

/-- An answer that is not fatal is written, and the connection goes on with the next frame. -/
theorem respond_of_not_fatal {frame : Frame} {queue : List Frame}
    (hqueue : c.queue = frame :: queue) (hfatal : s.isFatal frame = false) :
    (c.respond s true).queue = queue ∧ (c.respond s true).written = c.written ++ [s.line frame] ∧
      (c.respond s true).reads = c.reads ∧
      ((c.respond s true).phase = c.phase ∨
        c.phase = .flushing ∧ (c.respond s true).phase = .closed .finished) := by
  have hrespond : c.respond s true =
      closeIfDone { c with written := c.written ++ [s.line frame], queue := queue } := by
    rw [respond, hqueue]
    simp [hfatal]
  rw [hrespond]
  rcases closeIfDone_eq { c with written := c.written ++ [s.line frame], queue := queue } with
    heq | ⟨hphase, hnil, heq⟩
  · rw [heq]
    exact ⟨rfl, rfl, rfl, Or.inl rfl⟩
  · rw [heq]
    exact ⟨hnil.symm, rfl, rfl, Or.inr ⟨hphase, rfl⟩⟩

end Connection

namespace Server

open DepSpec.Frame

variable {s : Service} {server : Server} {i : Nat} {c : Connection}

/-! ## A server that answers all it has read -/

/-- **What is queued is written**, if the responses are delivered. -/
theorem getElem?_run_respond (hrunning : server.isRunning = true)
    (hc : server.connections[i]? = some c) (hfatal : ∀ frame, s.isFatal frame = false) :
    ∃ c', (server.run s (List.replicate c.queue.length (.respond i true))).connections[i]? =
        some c' ∧ c'.queue = [] ∧ c'.written = c.written ++ c.queue.map s.line ∧
      c'.reads = c.reads ∧
      (c'.phase = c.phase ∨ c.phase = .flushing ∧ c'.phase = .closed .finished) := by
  induction hqueue : c.queue generalizing server c with
  | nil => exact ⟨c, hc, hqueue, (List.append_nil _).symm, rfl, Or.inl rfl⟩
  | cons frame queue ih =>
    obtain ⟨hrest, hwritten, hreads, hphase⟩ :=
      Connection.respond_of_not_fatal hqueue (hfatal frame)
    obtain ⟨c', hc', hnil, hwritten', hreads', hphase'⟩ :=
      ih (isRunning_step hrunning (by simp)) (getElem?_step_respond hrunning hc true) hrest
    refine ⟨c', hc', hnil, ?_, hreads'.trans hreads, ?_⟩
    · rw [hwritten', hwritten, List.append_assoc]
      rfl
    · rcases hphase with hsame | ⟨hflushing, hfinished⟩
      · rwa [hsame] at hphase'
      · right
        refine ⟨hflushing, ?_⟩
        rcases hphase' with hsame' | ⟨hflushing', -⟩
        · exact hsame'.trans hfinished
        · rw [hfinished] at hflushing'
          cases hflushing'

theorem isRunning_serveReads (h : server.isRunning = true) (i : Nat) (reads : List (List UInt8)) :
    (server.serveReads s true i reads).isRunning = true := by
  rw [isRunning, phase_serveReads]
  exact h

/-- A connection that reads bytes and answers what is in them waits again. -/
theorem getElem?_serveRead (hrunning : server.isRunning = true)
    (hc : server.connections[i]? = some c) (hwaiting : c.isWaiting = true)
    (hfatal : ∀ frame, s.isFatal frame = false) {bytes : List UInt8} (hbytes : bytes ≠ []) :
    ∃ c', (server.serveRead s true i bytes).connections[i]? = some c' ∧ c'.isWaiting = true ∧
      c'.reads = c.reads ++ [bytes] := by
  have hread := getElem?_step_read (s := s) hrunning hc bytes
  obtain ⟨c', hc', hqueue, -, hreads, hphase⟩ :=
    getElem?_run_respond (isRunning_step hrunning (by simp)) hread hfatal
  rw [← serveRead_eq hread] at hc'
  have hreading := Connection.phase_read hwaiting hbytes
  refine ⟨c', hc', Connection.isWaiting_iff.2 ⟨?_, hqueue⟩, ?_⟩
  · rcases hphase with hsame | ⟨hflushing, -⟩
    · exact hsame.trans hreading
    · rw [hreading] at hflushing
      cases hflushing
  · rw [hreads, Connection.reads_read]
    simp [hwaiting, hbytes]

/-- So does one that reads several times. -/
theorem getElem?_serveReads (hrunning : server.isRunning = true)
    (hc : server.connections[i]? = some c) (hwaiting : c.isWaiting = true)
    (hfatal : ∀ frame, s.isFatal frame = false) {reads : List (List UInt8)}
    (hreads : ∀ bytes ∈ reads, bytes ≠ []) :
    ∃ c', (server.serveReads s true i reads).connections[i]? = some c' ∧ c'.isWaiting = true ∧
      c'.reads = c.reads ++ reads := by
  induction reads generalizing server c with
  | nil => exact ⟨c, hc, hwaiting, (List.append_nil _).symm⟩
  | cons bytes reads ih =>
    rw [List.forall_mem_cons] at hreads
    obtain ⟨c₁, hc₁, hwaiting₁, hreads₁⟩ :=
      getElem?_serveRead hrunning hc hwaiting hfatal hreads.1
    have hrunning₁ : (server.serveRead s true i bytes).isRunning = true :=
      isRunning_serveReads hrunning i [bytes]
    obtain ⟨c', hc', hwaiting', hreads'⟩ := ih hrunning₁ hc₁ hwaiting₁ hreads.2
    refine ⟨c', hc', hwaiting', ?_⟩
    rw [hreads', hreads₁, List.append_assoc]
    rfl

/-- A connection that reads the end of its stream answers what is left, and has ended. -/
theorem getElem?_serveRead_end (hrunning : server.isRunning = true)
    (hc : server.connections[i]? = some c) (hwaiting : c.isWaiting = true)
    (hfatal : ∀ frame, s.isFatal frame = false) :
    ∃ c', (server.serveRead s true i []).connections[i]? = some c' ∧ c'.queue = [] ∧
      (c'.phase = .flushing ∨ c'.phase = .closed .finished) ∧ c'.reads = c.reads := by
  have hread := getElem?_step_read (s := s) hrunning hc []
  obtain ⟨c', hc', hqueue, -, hreads, hphase⟩ :=
    getElem?_run_respond (isRunning_step hrunning (by simp)) hread hfatal
  rw [← serveRead_eq hread] at hc'
  refine ⟨c', hc', hqueue, ?_, ?_⟩
  · have hended : (c.read []).phase = .flushing ∨ (c.read []).phase = .closed .finished := by
      rw [Connection.read, hwaiting]
      simp only [Bool.not_true, Bool.false_eq_true, if_false, if_true]
      rcases Connection.closeIfDone_eq { c with framer := c.framer.finish.2,
                                                queue := c.framer.finish.1.toList,
                                                phase := .flushing } with heq | ⟨-, -, heq⟩
      · rw [heq]
        exact Or.inl rfl
      · rw [heq]
        exact Or.inr rfl
    rcases hphase with hsame | ⟨-, hfinished⟩
    · exact hsame ▸ hended
    · exact Or.inr hfinished
  · rw [hreads, Connection.reads_read]
    simp

theorem Reachable.serveReads (h : server.Reachable s) (i : Nat) (reads : List (List UInt8)) :
    (server.serveReads s true i reads).Reachable s :=
  serveReads_keeps (P := Reachable s) (fun _ _ h => h.step _) (fun _ h => h.step _) h reads

theorem Reachable.serves (h : server.Reachable s) (hc : server.connections[i]? = some c) :
    ∃ ended done, c.Serves s ended done := by
  obtain ⟨path, identity, watching, cancellation, events, rfl⟩ := h
  obtain ⟨⟨ended, done, hserves, -⟩, -⟩ :=
    serves_and_explains (connections_started path identity watching cancellation)
      (stopsAsAsked_started path identity watching cancellation) hc
  exact ⟨ended, done, hserves⟩

/-- **However a stream is cut, the texts in it are answered**: on a new connection of a server that
    listens, reads that ask for a text lead to its response line in its place. -/
theorem written_serveReads (hserver : server.Reachable s) (hlistening : server.phase = .listening)
    (hframing : s.settings.framing = .newline) (hfatal : ∀ frame, s.isFatal frame = false)
    {spec : String} {before : List (List UInt8)} {mustEnd : Bool} {reads : List (List UInt8)}
    (hreads : ∀ bytes ∈ reads, bytes ≠ [])
    (hasks : AsksWithin s.maxBytes spec before mustEnd reads.flatten) :
    ∃ c, ((server.step s .accept).serveReads s true server.connections.length
        (reads ++ if mustEnd then [[]] else [])).connections[server.connections.length]? = some c ∧
      c.written[before.length]? = some (s.line (.request spec)) := by
  have haccepted : (server.step s .accept).connections[server.connections.length]? =
      some (.fresh s) := by
    rw [step, if_pos hlistening]
    simp
  have hrunning : (server.step s .accept).isRunning = true := by
    rw [step, if_pos hlistening, isRunning, hlistening]
  obtain ⟨c, hc, hwaiting, hcreads⟩ :=
    getElem?_serveReads hrunning haccepted rfl hfatal hreads
  obtain ⟨hreading, hqueue⟩ := Connection.isWaiting_iff.1 hwaiting
  rw [Connection.fresh, List.nil_append] at hcreads
  have hserved := (hserver.step .accept).serveReads server.connections.length reads
  cases mustEnd with
  | false =>
    rw [if_neg Bool.false_ne_true, List.append_nil]
    obtain ⟨ended, done, hserves⟩ := hserved.serves hc
    rw [← hcreads] at hasks
    have hline := hserves.line_of_asks hframing hfatal hasks (by simp [hreading])
      (by simp [hreading]) (by simp)
    rw [hqueue, List.map_nil, List.append_nil] at hline
    exact ⟨c, hc, hline⟩
  | true =>
    obtain ⟨c', hc', hnil, hphase, hreads'⟩ := getElem?_serveRead_end
      (isRunning_serveReads hrunning server.connections.length reads) hc hwaiting hfatal
    rw [if_pos rfl, serveReads, List.foldl_append]
    obtain ⟨ended, done, hserves⟩ := (hserved.serveReads server.connections.length [[]]).serves hc'
    rw [← hreads'.trans hcreads] at hasks
    have hline := hserves.line_of_asks hframing hfatal hasks
      (by rcases hphase with h | h <;> simp [h]) (by rcases hphase with h | h <;> simp [h])
      (by rcases hphase with h | h <;> simp [h])
    rw [hnil, List.map_nil, List.append_nil] at hline
    exact ⟨c', hc', hline⟩

end Server

end DepSpec
