import DepSpec.Proofs.Service.Answering
import DepSpec.Proofs.Service.AskedLines
import DepSpec.Service.Conversation

set_option autoImplicit false

/-! # Client and server in step with each other

`InStep` is the invariant of a conversation. It splits what was asked into what is settled and the
one ask that may wait, and says that the server has answered the settled asks and at most that one.
Most of it does not mention what the answers are (`Aligned`). That the server is never ahead follows
from the bytes alone (`Aligned.rest_append_queue`): what the server has read is the front of what was
sent, later bytes take no frame back, and each request is one frame.

What an act does is told from the invariant (`Aligned.step_deliver`, `Aligned.step_respond`), and one
lemma for each act says that it keeps the invariant. -/

namespace DepSpec

open Text

/-! ## The server's side -/

theorem Connection.told_eq {s : Service} (hframing : s.settings.framing = .newline)
    (k : Connection) : k.told s false = Frame.told s.maxBytes k.reads.flatten := by
  have htold :=
    (Framer.told_pushAll (Framer.holds_fresh s.maxBytes) List.not_mem_nil k.reads).1
  rw [List.nil_append] at htold
  rw [← htold, Connection.told, Connection.cut, Connection.fresh, hframing]
  rfl

/-- A read that is not empty leaves a connection open that waits for it. -/
theorem Connection.phase_read {k : Connection} (hwaiting : k.isWaiting = true)
    {bytes : List UInt8} (hbytes : bytes ≠ []) : (k.read bytes).phase = .reading := by
  obtain ⟨hreading, -⟩ := isWaiting_iff.1 hwaiting
  simp [read, hwaiting, hbytes, hreading]

/-- An answer is written, and closes a connection that reads only if it is fatal. -/
theorem Connection.respond_reading {s : Service} {k : Connection} (hphase : k.phase = .reading)
    {frame : Frame} {queue : List Frame} (hqueue : k.queue = frame :: queue) :
    (k.respond s true).written = k.written ++ [s.line frame] ∧
      (k.respond s true).reads = k.reads ∧
      ((k.respond s true).phase = .reading ∧ (k.respond s true).queue = queue ∨
        (k.respond s true).phase = .closed .fatal ∧ (k.respond s true).queue = []) := by
  have hanswered : k.respond s true =
      if s.isFatal frame then { k with written := k.written ++ [s.line frame] }.close .fatal
      else { k with written := k.written ++ [s.line frame], queue := queue } := by
    rw [respond, hqueue]
    simp [closeIfDone, hphase]
  rw [hanswered]
  split
  · exact ⟨rfl, rfl, Or.inr ⟨rfl, rfl⟩⟩
  · exact ⟨rfl, rfl, Or.inl ⟨hphase, rfl⟩⟩

namespace Server

variable {s : Service} {server : Server} {i : Nat} {k : Connection}

theorem isRunning_step (h : server.isRunning = true) {e : Event} (he : e ≠ .finish) :
    (server.step s e).isRunning = true := by
  rcases phase_step s server e with hphase | ⟨reason, -, -, -, hphase⟩ | ⟨reason, hfinish, -⟩
  · rw [isRunning, hphase]
    exact h
  · rw [isRunning, hphase]
  · exact absurd hfinish he

/-- What is not about a connection leaves it as it is. -/
theorem getElem?_step_of_not_concerns (hk : server.connections[i]? = some k) {e : Event}
    (he : e.concerns i = false) : (server.step s e).connections[i]? = some k := by
  obtain ⟨k', hk', hm⟩ := exists_move s hk e
  cases hm with
  | idle => exact hk'
  | read | respond | lose | notice => simp [Event.concerns] at he
  | finish => cases he

theorem getElem?_step_read (hrunning : server.isRunning = true)
    (hk : server.connections[i]? = some k) (bytes : List UInt8) :
    (server.step s (.read i bytes)).connections[i]? = some (k.read bytes) := by
  rw [step, if_pos hrunning, onConnection, List.getElem?_modify, hk]
  simp

theorem getElem?_step_respond (hrunning : server.isRunning = true)
    (hk : server.connections[i]? = some k) (delivered : Bool) :
    (server.step s (.respond i delivered)).connections[i]? = some (k.respond s delivered) := by
  rw [step, if_pos hrunning, connections_respond, onConnection, List.getElem?_modify, hk]
  simp

end Server

namespace Conversation

/-! ## The invariant -/

/-- The client has answers to the asks `settled`, and may wait for that to one more. The server has
    answered what was settled and the frames `rest`, whose lines are on their way. -/
structure Aligned (s : Service) (c : Conversation) (k : Connection) (settled : List String)
    (pending : Option String) (rest : List Frame) : Prop where
  isRunning : c.server.isRunning = true
  connection : c.server.connections[c.connection]? = some k
  serves : k.Serves s false (s.framesOf settled ++ rest)
  phase : k.phase = .reading ∨ k.phase = .closed .fatal
  asked : c.asked = settled ++ pending.toList
  answered : c.answers.length = settled.length
  oneLine : ∀ spec, pending = some spec → Client.isOneLine spec = true
  sent : k.reads.flatten ++ c.outbound = Client.requests c.asked
  flight : c.reader.heard ++ c.inbound = rest.flatMap s.lineBytes
  unfinished : lineFeed ∉ c.reader.heard

/-- The answers are the replies to the asks that are settled. -/
structure InStep (s : Service) (c : Conversation) (k : Connection) (settled : List String)
    (pending : Option String) (rest : List Frame) : Prop
    extends Aligned s c k settled pending rest where
  answers : c.answers = settled.map s.reply

variable {s : Service} {c : Conversation} {k : Connection} {settled : List String}
  {pending : Option String} {rest : List Frame}

theorem Aligned.isIdle_iff (h : Aligned s c k settled pending rest) :
    c.isIdle = true ↔ pending = none := by
  rw [isIdle, h.asked, h.answered, List.length_append, beq_iff_eq]
  cases pending <;> simp

theorem Aligned.not_idle {spec : String} (h : Aligned s c k settled (some spec) rest) :
    c.isIdle ≠ true :=
  fun hidle => nomatch h.isIdle_iff.1 hidle

theorem Aligned.connectionIs_eq (h : Aligned s c k settled pending rest) (p : Connection → Bool) :
    c.connectionIs p = p k := by
  rw [connectionIs, h.connection]
  rfl

theorem Aligned.queueLength_eq (h : Aligned s c k settled pending rest) :
    c.server.queueLength c.connection = k.queue.length := by
  rw [Server.queueLength, h.connection]
  rfl

/-- Nothing is answered or to be answered but the pending ask. -/
theorem Aligned.rest_append_queue (hframing : s.settings.framing = .newline)
    (h : Aligned s c k settled pending rest) :
    rest ++ k.queue = [] ∨ ∃ spec, pending = some spec ∧ rest ++ k.queue = [s.frameOf spec] := by
  -- What is read is the front of what was sent, and bytes that come later take no frame back.
  have hprefix : s.framesOf settled ++ (rest ++ k.queue) <+:
      s.framesOf settled ++ s.framesOf pending.toList := by
    rw [← s.framesOf_append, ← h.asked, ← Frame.told_requests s c.asked, ← h.sent,
      ← List.append_assoc]
    exact (k.told_eq hframing ▸ h.serves.queued_prefix).trans (Frame.told_prefix ..)
  rw [List.prefix_append_right_inj] at hprefix
  cases hpending : pending with
  | none =>
    rw [hpending] at hprefix
    exact Or.inl (List.prefix_nil.1 hprefix)
  | some spec =>
    rw [hpending, Option.toList_some, s.framesOf_singleton (h.oneLine spec hpending)] at hprefix
    rcases List.prefix_cons_iff.1 hprefix with hnil | ⟨more, hrest, hmore⟩
    · exact Or.inl hnil
    · rw [List.prefix_nil.1 hmore] at hrest
      exact Or.inr ⟨spec, rfl, hrest⟩

/-- The server is ahead of the client by the answer to the pending ask at most. -/
theorem Aligned.rest_eq (hframing : s.settings.framing = .newline)
    (h : Aligned s c k settled pending rest) :
    rest = [] ∨ ∃ spec, pending = some spec ∧ rest = [s.frameOf spec] := by
  rcases h.rest_append_queue hframing with hnil | ⟨spec, hspec, hone⟩
  · exact Or.inl (List.append_eq_nil_iff.1 hnil).1
  · rcases List.append_eq_singleton_iff.1 hone with ⟨hnil, -⟩ | ⟨hrest, -⟩
    · exact Or.inl hnil
    · exact Or.inr ⟨spec, hspec, hrest⟩

/-- A line that the server has written is not read to its end as long as the client waits. -/
theorem Aligned.inbound_ne_nil {frame : Frame} (h : Aligned s c k settled pending [frame]) :
    c.inbound ≠ [] := by
  intro hnil
  obtain ⟨line, -, hline⟩ := s.lineBytes_eq frame
  have hheard := h.flight
  rw [hnil, List.append_nil, List.flatMap_singleton, hline] at hheard
  apply h.unfinished
  rw [hheard]
  exact List.mem_concat_self

/-- The connection stays open until a fatal answer is written. -/
theorem Aligned.reading (h : Aligned s c k settled pending [])
    (hfatal : ∀ spec ∈ settled, s.isFatalAsk spec = false) : k.phase = .reading := by
  rcases h.phase with hphase | hphase
  · exact hphase
  · have hframe := h.serves.closed_fatal.2 hphase
    rw [List.append_nil] at hframe
    obtain ⟨spec, hspec, hf⟩ := Service.exists_isFatal_framesOf.1 hframe
    rw [hfatal spec hspec] at hf
    cases hf

/-- Nothing fatal is answered on a connection that is open. -/
theorem Aligned.not_fatal_of_reading (h : Aligned s c k settled pending rest)
    (hphase : k.phase = .reading) : ∀ spec ∈ settled, s.isFatalAsk spec = false := by
  intro spec hspec
  by_contra hfatal
  obtain ⟨frame, hframe, hf⟩ :=
    Service.exists_isFatal_framesOf.2 ⟨spec, hspec, by simpa using hfatal⟩
  have hclosed := h.serves.closed_fatal.1 ⟨frame, List.mem_append_left _ hframe, hf⟩
  rw [hphase] at hclosed
  cases hclosed

theorem Aligned.reading_of_queue (h : Aligned s c k settled pending rest) {frame : Frame}
    {queue : List Frame} (hqueue : k.queue = frame :: queue) : k.phase = .reading := by
  have hopen := h.serves.open_of_queue hqueue
  rcases h.phase with hphase | hphase
  · exact hphase
  · rw [Connection.isClosed, hphase] at hopen
    cases hopen

/-- Once everything is read and answered there is a line for the pending ask. -/
theorem Aligned.rest_ne_nil (hframing : s.settings.framing = .newline) {spec : String}
    (h : Aligned s c k settled (some spec) rest) (hreading : k.phase = .reading)
    (hqueue : k.queue = []) (houtbound : c.outbound = []) : rest ≠ [] := by
  rintro rfl
  have hdue := h.serves.due
  rw [Connection.Due, hreading] at hdue
  have hframes := hdue.2.1
  have hsent := h.sent
  rw [houtbound, List.append_nil] at hsent
  rw [hqueue, List.append_nil, List.append_nil, k.told_eq hframing, hsent, Frame.told_requests,
    h.asked, s.framesOf_append, Option.toList_some, s.framesOf_singleton (h.oneLine spec rfl)]
    at hframes
  have hlength := congrArg List.length hframes
  rw [List.length_append, List.length_singleton] at hlength
  omega

theorem inStep_opened {server : Server} (h : server.phase = .listening) :
    InStep s (opened s server) (.fresh s) [] none [] where
  isRunning := by
    rw [opened, Server.step, if_pos h, Server.isRunning, h]
  connection := by
    rw [opened, Server.step, if_pos h]
    simp
  serves := Connection.serves_fresh s
  phase := Or.inl rfl
  asked := rfl
  answered := rfl
  answers := rfl
  oneLine := nofun
  sent := rfl
  flight := rfl
  unfinished := List.not_mem_nil

/-! ## What the client does -/

theorem Aligned.asked_of_none (h : Aligned s c k settled none rest) : c.asked = settled :=
  h.asked.trans (List.append_nil settled)

/-- Only asks and the client's reads bring answers. -/
theorem answers_step (a : Act) (hask : ∀ spec, a ≠ .ask spec) (hreceive : ∀ n, a ≠ .receive n) :
    (c.step s a).answers = c.answers := by
  cases a with
  | ask spec => exact absurd rfl (hask spec)
  | receive n => exact absurd rfl (hreceive n)
  | deliver n =>
    rw [step]
    split
    · rfl
    · split <;> rfl
  | respond | elsewhere =>
    rw [step]
    split <;> rfl

theorem step_ask_line (hidle : c.isIdle = true) {spec : String}
    (hone : Client.isOneLine spec = true) :
    c.step s (.ask spec) =
      { c with asked := c.asked ++ [spec],
               outbound := c.outbound ++ (encodeText spec.toList ++ [lineFeed]) } := by
  rw [step, if_pos hidle, Client.request, if_pos hone]

theorem step_ask_refused (hidle : c.isIdle = true) {spec : String}
    (hone : Client.isOneLine spec = false) :
    c.step s (.ask spec) =
      { c with asked := c.asked ++ [spec], answers := c.answers ++ [s.reply spec] } := by
  rw [step, if_pos hidle, Client.request, if_neg (Bool.eq_false_iff.1 hone), Service.reply, hone]
  rfl

theorem Aligned.step_ask_line (h : Aligned s c k settled none rest) {spec : String}
    (hone : Client.isOneLine spec = true) :
    c.step s (.ask spec) =
      { c with asked := c.asked ++ [spec],
               outbound := c.outbound ++ (encodeText spec.toList ++ [lineFeed]) } :=
  Conversation.step_ask_line (h.isIdle_iff.2 rfl) hone

theorem Aligned.ask_line (h : Aligned s c k settled none rest) {spec : String}
    (hone : Client.isOneLine spec = true) :
    Aligned s (c.step s (.ask spec)) k settled (some spec) rest := by
  rw [h.step_ask_line hone]
  exact { h with
    asked := congrArg (· ++ [spec]) h.asked_of_none
    oneLine := fun spec' hspec => Option.some.inj hspec ▸ hone
    sent := by
      rw [Client.requests_append, Client.requests_singleton hone, ← h.sent, List.append_assoc] }

theorem InStep.ask_line (h : InStep s c k settled none rest) {spec : String}
    (hone : Client.isOneLine spec = true) :
    InStep s (c.step s (.ask spec)) k settled (some spec) rest where
  toAligned := h.toAligned.ask_line hone
  answers := by
    rw [h.step_ask_line hone]
    exact h.answers

theorem Aligned.step_ask_refused (h : Aligned s c k settled none rest) {spec : String}
    (hone : Client.isOneLine spec = false) :
    c.step s (.ask spec) =
      { c with asked := c.asked ++ [spec], answers := c.answers ++ [s.reply spec] } :=
  Conversation.step_ask_refused (h.isIdle_iff.2 rfl) hone

/-- A specifier that holds a line break is settled at once. -/
theorem Aligned.ask_refused (h : Aligned s c k settled none rest) {spec : String}
    (hone : Client.isOneLine spec = false) :
    Aligned s (c.step s (.ask spec)) k (settled ++ [spec]) none rest := by
  have hnone : [spec].filter Client.isOneLine = [] := by
    simp [hone]
  have hframes : s.framesOf (settled ++ [spec]) = s.framesOf settled := by
    rw [s.framesOf_append, Service.framesOf, Service.framesOf, hnone]
    exact List.append_nil _
  have hsent : Client.requests (c.asked ++ [spec]) = Client.requests c.asked := by
    rw [Client.requests_append, Client.requests, Client.requests, hnone]
    exact List.append_nil _
  rw [h.step_ask_refused hone]
  exact { h with
    serves := hframes ▸ h.serves
    asked := by
      rw [h.asked_of_none]
      exact (List.append_nil _).symm
    answered := by
      rw [List.length_append, List.length_append, h.answered]
      rfl
    sent := hsent ▸ h.sent }

theorem InStep.ask_refused (h : InStep s c k settled none rest) {spec : String}
    (hone : Client.isOneLine spec = false) :
    InStep s (c.step s (.ask spec)) k (settled ++ [spec]) none rest where
  toAligned := h.toAligned.ask_refused hone
  answers := by
    rw [h.step_ask_refused hone, h.answers, List.map_append, List.map_singleton]

/-- The end of a line that is on its way is still to be read. -/
theorem lineFeed_mem_inbound {frame : Frame}
    (hflight : c.reader.heard ++ c.inbound = s.lineBytes frame)
    (hunfinished : lineFeed ∉ c.reader.heard) : lineFeed ∈ c.inbound := by
  obtain ⟨line, -, hline⟩ := s.lineBytes_eq frame
  have hall : lineFeed ∈ c.reader.heard ++ c.inbound := by
    rw [hflight, hline]
    exact List.mem_concat_self
  exact (List.mem_append.1 hall).resolve_left hunfinished

/-- A read that takes all of a line ends it, so the client takes the line for the answer. -/
theorem step_receive_all (hidle : c.isIdle ≠ true) {frame : Frame}
    (hflight : c.reader.heard ++ c.inbound = s.lineBytes frame)
    (hunfinished : lineFeed ∉ c.reader.heard) {n : Nat} (hall : c.inbound.length ≤ n + 1) :
    c.step s (.receive n) =
      { c with answers := c.answers ++ [Client.answer (s.lineBytes frame)],
               inbound := [], reader := {} } := by
  have hmem := lineFeed_mem_inbound hflight hunfinished
  obtain ⟨line, hnot, hline⟩ := s.lineBytes_eq frame
  cases hinbound : c.inbound with
  | nil =>
    rw [hinbound] at hmem
    cases hmem
  | cons b bytes =>
    rw [hinbound] at hflight hmem hall
    have hbytes : bytes.length ≤ n := Nat.le_of_succ_le_succ hall
    rw [step, if_neg hidle, hinbound]
    dsimp only
    rw [List.take_of_length_le hbytes, List.drop_eq_nil_iff.2 hbytes, if_pos hmem, takeAnswer]
    dsimp only
    rw [LineReader.next_line hunfinished hnot (hflight.trans hline), hline]

/-- With a line on its way the client reads a part of it, or takes it for the answer. -/
theorem step_receive_line (hidle : c.isIdle ≠ true) {frame : Frame}
    (hflight : c.reader.heard ++ c.inbound = s.lineBytes frame)
    (hunfinished : lineFeed ∉ c.reader.heard) (n : Nat) :
    c.step s (.receive n) =
        { c with answers := c.answers ++ [Client.answer (s.lineBytes frame)],
                 inbound := [], reader := {} } ∨
      ∃ inbound reader, c.step s (.receive n) = { c with inbound := inbound, reader := reader } ∧
        reader.heard ++ inbound = s.lineBytes frame ∧ lineFeed ∉ reader.heard := by
  by_cases hall : c.inbound.length ≤ n + 1
  · exact Or.inl (step_receive_all hidle hflight hunfinished hall)
  · obtain ⟨line, hnot, hline⟩ := s.lineBytes_eq frame
    cases hinbound : c.inbound with
    | nil => simp [hinbound] at hall
    | cons b bytes =>
      rw [hinbound] at hflight hall
      have hmore : bytes.drop n ≠ [] := by
        rw [Ne, List.drop_eq_nil_iff]
        exact fun hbytes => hall (Nat.succ_le_succ hbytes)
      have hsplit : c.reader.heard ++ (b :: bytes.take n) ++ bytes.drop n = s.lineBytes frame := by
        rw [List.append_assoc, List.cons_append, List.take_append_drop]
        exact hflight
      have hmissing := lineFeed_not_mem_of_append hnot (hsplit.trans hline) hmore
      rw [step, if_neg hidle, hinbound]
      dsimp only
      rw [if_neg fun hmem => hmissing (List.mem_append_right _ hmem)]
      refine Or.inr ⟨_, _, rfl, ?_⟩
      rw [LineReader.heard_expect]
      exact ⟨hsplit, hmissing⟩

/-- With nothing on its way the client goes on waiting: the stream has not ended, since no fatal
    answer is missing. -/
theorem Aligned.step_receive_eq_self (hframing : s.settings.framing = .newline) {spec : String}
    (h : Aligned s c k settled (some spec) rest)
    (hfatal : ∀ spec ∈ settled, s.isFatalAsk spec = false) (hinbound : c.inbound = []) (n : Nat) :
    c.step s (.receive n) = c := by
  rcases h.rest_eq hframing with rfl | ⟨_, -, rfl⟩
  · have hclosed : k.isClosed = false := by
      rw [Connection.isClosed, h.reading hfatal]
    rw [step, if_neg h.not_idle, hinbound, h.connectionIs_eq, hclosed]
    rfl
  · exact absurd hinbound h.inbound_ne_nil

/-- The client takes the line for the answer to the ask that waits. -/
theorem Aligned.settle {spec : String} (h : Aligned s c k settled (some spec) [s.frameOf spec]) :
    Aligned s
      { c with answers := c.answers ++ [Client.answer (s.lineBytes (s.frameOf spec))],
               inbound := [], reader := {} }
      k (settled ++ [spec]) none [] :=
  { h with
    serves := by
      rw [s.framesOf_append, s.framesOf_singleton (h.oneLine spec rfl), List.append_nil]
      exact h.serves
    asked := h.asked.trans (List.append_nil _).symm
    answered := by
      rw [List.length_append, List.length_append, h.answered]
      rfl
    oneLine := nofun
    flight := rfl
    unfinished := List.not_mem_nil }

theorem InStep.settle (henvelope : s.settings.envelope = .result) {spec : String}
    (h : InStep s c k settled (some spec) [s.frameOf spec]) :
    InStep s
      { c with answers := c.answers ++ [Client.answer (s.lineBytes (s.frameOf spec))],
               inbound := [], reader := {} }
      k (settled ++ [spec]) none [] where
  toAligned := h.toAligned.settle
  answers := by
    rw [Client.answer_lineBytes henvelope, h.answers, List.map_append, List.map_singleton,
      Service.reply_of_isOneLine (h.oneLine spec rfl)]

/-- A client that reads has what it had, or the answer that it waits for. -/
theorem Aligned.receive (hframing : s.settings.framing = .newline) {spec : String}
    (h : Aligned s c k settled (some spec) rest)
    (hfatal : ∀ spec ∈ settled, s.isFatalAsk spec = false) (n : Nat) :
    Aligned s (c.step s (.receive n)) k settled (some spec) rest ∧
        (c.step s (.receive n)).answers = c.answers ∨
      rest = [s.frameOf spec] ∧
        c.step s (.receive n) =
          { c with answers := c.answers ++ [Client.answer (s.lineBytes (s.frameOf spec))],
                   inbound := [], reader := {} } := by
  by_cases hinbound : c.inbound = []
  · rw [h.step_receive_eq_self hframing hfatal hinbound]
    exact Or.inl ⟨h, rfl⟩
  · obtain rfl : rest = [s.frameOf spec] := by
      rcases h.rest_eq hframing with rfl | ⟨spec', hspec, hrest⟩
      · exact absurd (List.append_eq_nil_iff.1 h.flight).2 hinbound
      · cases hspec
        exact hrest
    have hflight := h.flight
    rw [List.flatMap_singleton] at hflight
    rcases step_receive_line h.not_idle hflight h.unfinished n with
      hstep | ⟨inbound, reader, hstep, hflight, hunfinished⟩
    · exact Or.inr ⟨rfl, hstep⟩
    · rw [hstep]
      refine Or.inl ⟨{ h with flight := ?_, unfinished := hunfinished }, rfl⟩
      rw [List.flatMap_singleton]
      exact hflight

theorem InStep.receive (hframing : s.settings.framing = .newline)
    (henvelope : s.settings.envelope = .result) {spec : String}
    (h : InStep s c k settled (some spec) rest)
    (hfatal : ∀ spec ∈ settled, s.isFatalAsk spec = false) (n : Nat) :
    ∃ settled' pending' rest', InStep s (c.step s (.receive n)) k settled' pending' rest' := by
  rcases h.toAligned.receive hframing hfatal n with ⟨haligned, hanswers⟩ | ⟨rfl, hstep⟩
  · exact ⟨settled, some spec, rest, haligned, hanswers.trans h.answers⟩
  · rw [hstep]
    exact ⟨settled ++ [spec], none, [], h.settle henvelope⟩

/-! ## What the server does -/

theorem Aligned.step_deliver_eq_self (h : Aligned s c k settled pending rest)
    (hnone : c.outbound = [] ∨ k.isWaiting = false) (n : Nat) : c.step s (.deliver n) = c := by
  rw [step]
  rcases hnone with hnil | hbusy
  · rw [hnil]
  · rw [h.connectionIs_eq, hbusy]
    cases c.outbound <;> rfl

theorem Aligned.step_deliver (h : Aligned s c k settled pending rest) {b : UInt8}
    {bytes : List UInt8} (houtbound : c.outbound = b :: bytes) (hwaiting : k.isWaiting = true)
    (n : Nat) :
    c.step s (.deliver n) =
      { c with server := c.server.step s (.read c.connection (b :: bytes.take n)),
               outbound := bytes.drop n } := by
  rw [step, houtbound]
  dsimp only
  rw [h.connectionIs_eq, if_pos hwaiting]

theorem Aligned.deliver (h : Aligned s c k settled pending rest) {b : UInt8} {bytes : List UInt8}
    (houtbound : c.outbound = b :: bytes) (hwaiting : k.isWaiting = true) (n : Nat) :
    Aligned s (c.step s (.deliver n)) (k.read (b :: bytes.take n)) settled pending rest := by
  have hreads : (k.read (b :: bytes.take n)).reads = k.reads ++ [b :: bytes.take n] := by
    rw [Connection.reads_read, hwaiting]
    rfl
  -- A read that is not empty leaves the stream open.
  obtain ⟨ended, hserves, hended⟩ := h.serves.read (b :: bytes.take n)
  obtain rfl : ended = false := by
    cases ended with
    | false => rfl
    | true => rcases hended rfl with hbefore | hnil <;> contradiction
  rw [h.step_deliver houtbound hwaiting]
  exact { h with
    isRunning := Server.isRunning_step h.isRunning (by simp)
    connection := Server.getElem?_step_read (s := s) h.isRunning h.connection _
    serves := hserves
    phase := Or.inl (Connection.phase_read hwaiting nofun)
    sent := by
      rw [hreads, ← h.sent, houtbound, List.flatten_append, List.append_assoc]
      simp }

theorem InStep.deliver (h : InStep s c k settled pending rest) {b : UInt8} {bytes : List UInt8}
    (houtbound : c.outbound = b :: bytes) (hwaiting : k.isWaiting = true) (n : Nat) :
    InStep s (c.step s (.deliver n)) (k.read (b :: bytes.take n)) settled pending rest where
  toAligned := h.toAligned.deliver houtbound hwaiting n
  answers := (answers_step (.deliver n) nofun nofun).trans h.answers

theorem Aligned.step_respond_eq_self (h : Aligned s c k settled pending rest)
    (hqueue : k.queue = []) : c.step s .respond = c := by
  rw [step, h.queueLength_eq, hqueue]
  rfl

theorem Aligned.step_respond (h : Aligned s c k settled pending rest) {frame : Frame}
    {queue : List Frame} (hqueue : k.queue = frame :: queue) :
    c.step s .respond =
      { c with server := c.server.step s (.respond c.connection true),
               inbound := c.inbound ++ s.lineBytes frame } := by
  have hk' := Server.getElem?_step_respond (s := s) h.isRunning h.connection true
  obtain ⟨hwritten, -⟩ := Connection.respond_reading (s := s) (h.reading_of_queue hqueue) hqueue
  have hout : (c.server.step s (.respond c.connection true)).outputAfter c.connection
      (c.server.lineCount c.connection) = s.lineBytes frame := by
    rw [Server.outputAfter, Server.lineCount, hk', h.connection]
    show (k.respond s true).outputAfter k.written.length = _
    rw [Connection.outputAfter, hwritten, List.drop_left]
    exact List.append_nil _
  rw [step, h.queueLength_eq, hqueue, List.length_cons, if_neg (Nat.succ_ne_zero _)]
  dsimp only
  rw [hout]

theorem Aligned.respond (h : Aligned s c k settled pending rest) {frame : Frame}
    {queue : List Frame} (hqueue : k.queue = frame :: queue) :
    Aligned s (c.step s .respond) (k.respond s true) settled pending (rest ++ [frame]) := by
  have hreading := h.reading_of_queue hqueue
  obtain ⟨hwritten, hreads, hphase⟩ := Connection.respond_reading (s := s) hreading hqueue
  have hk' := Server.getElem?_step_respond (s := s) h.isRunning h.connection true
  rw [h.step_respond hqueue]
  exact { h with
    isRunning := Server.isRunning_step h.isRunning nofun
    connection := hk'
    serves := List.append_assoc .. ▸ h.serves.answer hqueue
    phase := hphase.imp And.left And.left
    sent := hreads ▸ h.sent
    flight := by
      rw [← List.append_assoc, h.flight, List.flatMap_append, List.flatMap_singleton] }

theorem InStep.respond (h : InStep s c k settled pending rest) {frame : Frame}
    {queue : List Frame} (hqueue : k.queue = frame :: queue) :
    InStep s (c.step s .respond) (k.respond s true) settled pending (rest ++ [frame]) where
  toAligned := h.toAligned.respond hqueue
  answers := (answers_step .respond nofun nofun).trans h.answers

theorem Aligned.elsewhere (h : Aligned s c k settled pending rest) (e : Server.Event) :
    Aligned s (c.step s (.elsewhere e)) k settled pending rest := by
  rw [step]
  cases he : e.concerns c.connection with
  | true => exact h
  | false =>
    have hfinish : e ≠ .finish := by
      rintro rfl
      cases he
    exact { h with
      isRunning := Server.isRunning_step h.isRunning hfinish
      connection := Server.getElem?_step_of_not_concerns h.connection he }

theorem InStep.elsewhere (h : InStep s c k settled pending rest) (e : Server.Event) :
    InStep s (c.step s (.elsewhere e)) k settled pending rest where
  toAligned := h.toAligned.elsewhere e
  answers := (answers_step (.elsewhere e) nofun nofun).trans h.answers

end Conversation

end DepSpec
