import DepSpec.Proofs.Service.FatalStop
import DepSpec.Proofs.Service.Interruptions

set_option autoImplicit false

/-! # The client of a loopback

A loopback serves at once what a client sends, so an ask of its client (`Loopback.askCut`) is a
conversation in one fixed order: the server reads and answers until it has the whole request, and
then the client reads the answer. Each read goes on with the conversation
(`Conversation.Aligned.serveRead`), and so do all of them (`Conversation.Aligned.serveReads`). Between
two asks nothing is on its way, and the server waits or has closed the connection
(`Loopback.Follows`). So what a client is told is what it is told in some run of a conversation
(`Loopback.answers_askEach_connect`), and what holds of all of these holds of a loopback. -/

namespace DepSpec

open Text

/-! ## Reads of a server that answers at once -/

namespace Server

variable {s : Service} {server : Server} {i : Nat} {k : Connection}

theorem reason_step_read (server : Server) (i : Nat) (bytes : List UInt8) :
    (server.step s (.read i bytes)).cancellation.reason = server.cancellation.reason :=
  (reason_step ..).trans (Option.or_none)

/-- An answer requests the stop only if it is fatal. -/
theorem reason_step_respond (hk : server.connections[i]? = some k) {frame : Frame}
    {queue : List Frame} (hqueue : k.queue = frame :: queue) (hfatal : s.isFatal frame = false)
    (delivered : Bool) :
    (server.step s (.respond i delivered)).cancellation.reason = server.cancellation.reason := by
  rw [reason_step, request?, hk, Option.any_some, Connection.isFatalNext_eq hqueue, hfatal]
  simp

/-- What a server does with one read: read it, and answer what is then in the queue. -/
theorem serveRead_eq {bytes : List UInt8}
    (hk : (server.step s (.read i bytes)).connections[i]? = some k) (delivered : Bool) :
    server.serveRead s delivered i bytes =
      (server.step s (.read i bytes)).run s
        (List.replicate k.queue.length (.respond i delivered)) := by
  simp [serveRead, queueLength, hk]

/-- Serving reads keeps what reads and responses of the one connection keep. -/
theorem serveReads_keeps {P : Server → Prop} {delivered : Bool}
    (hread : ∀ server bytes, P server → P (server.step s (.read i bytes)))
    (hrespond : ∀ server, P server → P (server.step s (.respond i delivered)))
    (h : P server) (reads : List (List UInt8)) : P (server.serveReads s delivered i reads) := by
  refine List.foldlRecOn reads _ h ?_
  intro server h bytes _
  refine List.foldlRecOn (List.replicate _ _) _ (hread server bytes h) ?_
  intro server h e he
  rw [List.eq_of_mem_replicate he]
  exact hrespond server h

theorem phase_serveReads (server : Server) (i : Nat) (delivered : Bool) (reads : List (List UInt8)) :
    (server.serveReads s delivered i reads).phase = server.phase := by
  have hkeeps (now : Server) {e : Event} (hstop : e ≠ .stop) (hfinish : e ≠ .finish)
      (h : now.phase = server.phase) : (now.step s e).phase = server.phase := by
    rcases phase_step s now e with hsame | ⟨_, hmoves, -⟩ | ⟨_, hmoves, -⟩
    · exact hsame.trans h
    · exact absurd hmoves hstop
    · exact absurd hmoves hfinish
  refine serveReads_keeps (P := fun now => now.phase = server.phase) ?_ ?_ rfl reads
  · exact fun now bytes => hkeeps now (by simp) (by simp)
  · exact fun now => hkeeps now (by simp) (by simp)

/-- A connection that is closed neither reads nor answers. -/
theorem serveReads_of_closed (hk : server.connections[i]? = some k) (hclosed : k.isClosed = true)
    (hqueue : k.queue = []) (delivered : Bool) (reads : List (List UInt8)) :
    server.serveReads s delivered i reads = server := by
  have hread (bytes : List UInt8) : k.read bytes = k := by
    obtain ⟨why, hphase⟩ := Connection.isClosed_iff.1 hclosed
    simp [Connection.read, Connection.isWaiting, hphase]
  have hsame (bytes : List UInt8) : server.connections.modify i (·.read bytes) =
      server.connections := by
    apply List.ext_getElem?
    intro j
    rw [List.getElem?_modify]
    split
    · next hj => simp [← hj, hk, hread]
    · simp
  have hstep (bytes : List UInt8) : server.step s (.read i bytes) = server := by
    simp [step, onConnection, hsame]
  induction reads with
  | nil => rfl
  | cons bytes reads ih =>
    have hserve : server.serveRead s delivered i bytes = server := by
      rw [serveRead_eq ((hstep bytes).symm ▸ hk), hqueue, hstep]
      rfl
    rw [serveReads, List.foldl_cons, hserve]
    exact ih

theorem settle_of_reason (h : server.cancellation.reason = none) : server.settle s = server := by
  simp [settle, Cancellation.isCancelled, h]

theorem getElem?_settle_of_closed (hk : server.connections[i]? = some k)
    (hclosed : k.isClosed = true) (hqueue : k.queue = []) :
    (server.settle s).connections[i]? = some k := by
  rw [settle]
  split
  · exact getElem?_run_of_closed hk hclosed hqueue _
  · exact hk

end Server

namespace Conversation

variable {s : Service} {start c : Conversation} {k : Connection} {settled : List String}
  {rest : List Frame} {spec : String}

/-! ## The server's part of an ask -/

/-- The server has gone on with a conversation by reading and answering. It has answered all that it
    has read, and if it still reads, nothing has stopped it. -/
structure Served (s : Service) (start c : Conversation) (k : Connection) : Prop where
  run : ∃ acts, start.run s acts = c
  answers : c.answers = start.answers
  connection : c.connection = start.connection
  queue : k.queue = []
  reason : k.phase = .reading → c.server.cancellation.reason = none

/-- One read, with the answers to what is in it. -/
theorem Aligned.serveRead (hframing : s.settings.framing = .newline)
    (h : Aligned s c k settled (some spec) rest) (hserved : Served s start c k) {b : UInt8}
    {bytes : List UInt8} (houtbound : c.outbound = b :: bytes) (hreading : k.phase = .reading)
    (n : Nat) :
    ∃ c' k' rest', Aligned s c' k' settled (some spec) rest' ∧ Served s start c' k' ∧
      c'.server = c.server.serveRead s true start.connection (b :: bytes.take n) ∧
      c'.outbound = bytes.drop n := by
  obtain ⟨⟨acts, hacts⟩, hanswers, hconnection, hqueue, hreason⟩ := hserved
  have hwaiting := Connection.isWaiting_iff.2 ⟨hreading, hqueue⟩
  have hread := h.deliver houtbound hwaiting n
  have hdeliver := run_concat start s acts (.deliver n)
  rw [hacts, h.step_deliver houtbound hwaiting] at hdeliver
  rw [h.step_deliver houtbound hwaiting] at hread
  have hserve := Server.serveRead_eq (s := s) hread.connection true
  have hafter := Server.reason_step_read (s := s) c.server c.connection (b :: bytes.take n)
  rw [hreason hreading] at hafter
  rw [← hconnection]
  cases hframes : (k.read (b :: bytes.take n)).queue with
  | nil =>
    rw [hframes] at hserve
    exact ⟨_, _, rest, hread, ⟨⟨_, hdeliver⟩, hanswers, hconnection, hframes, fun _ => hafter⟩,
      hserve.symm, rfl⟩
  | cons frame queue =>
    -- The frame is the one of the pending ask, so there is no other.
    obtain rfl : queue = [] := by
      rcases hread.rest_append_queue hframing with hnil | ⟨_, -, hone⟩
      · simp [hframes] at hnil
      · simp [hframes, List.append_eq_singleton_iff] at hone
        exact hone.2.2
    rw [hframes] at hserve
    have hanswered := hread.respond hframes
    have hrespond := run_concat start s (acts ++ [.deliver n]) .respond
    rw [hdeliver, hread.step_respond hframes] at hrespond
    rw [hread.step_respond hframes] at hanswered
    obtain ⟨-, -, hnext⟩ :=
      Connection.respond_reading (s := s) (hread.reading_of_queue hframes) hframes
    refine ⟨_, _, _, hanswered, ⟨⟨_, hrespond⟩, hanswers, hconnection,
      hnext.elim And.right And.right, ?_⟩, hserve.symm, rfl⟩
    intro hphase
    have hopen : ((k.read (b :: bytes.take n)).respond s true).isClosed = false := by
      rw [Connection.isClosed, hphase]
    have hfatal := hanswered.serves.not_fatal hopen frame (by simp)
    exact (Server.reason_step_respond hread.connection hframes hfatal true).trans hafter

/-- A server that has served what was sent since `start`, the last ask being `spec`: all of it, or
    all up to a fatal answer. -/
def IsServed (s : Service) (start : Conversation) (settled : List String) (spec : String)
    (server : Server) : Prop :=
  ∃ c k rest, Aligned s c k settled (some spec) rest ∧ Served s start c k ∧ c.server = server ∧
    (k.phase = .reading → c.outbound = [])

theorem Aligned.serveReads_of_closed (h : Aligned s c k settled (some spec) rest)
    (hserved : Served s start c k) (hclosed : k.phase = .closed .fatal)
    (reads : List (List UInt8)) :
    IsServed s start settled spec (c.server.serveReads s true start.connection reads) := by
  have hsame := Server.serveReads_of_closed (s := s) h.connection
    (Connection.isClosed_iff.2 ⟨.fatal, hclosed⟩) hserved.queue true reads
  rw [hserved.connection] at hsame
  refine ⟨c, k, rest, h, hserved, hsame.symm, fun hreading => ?_⟩
  rw [hclosed] at hreading
  cases hreading

/-- Several reads, up to the whole of what the client has sent or to a fatal answer. -/
theorem Aligned.serveReads (hframing : s.settings.framing = .newline)
    (h : Aligned s c k settled (some spec) rest) (hserved : Served s start c k) (sizes : List Nat) :
    IsServed s start settled spec
      (c.server.serveReads s true start.connection (pieces sizes c.outbound)) := by
  generalize houtbound : c.outbound = bytes
  induction sizes, bytes using pieces.induct generalizing c k rest with
  | case1 sizes =>
    rw [pieces]
    exact ⟨c, k, rest, h, hserved, rfl, fun _ => houtbound⟩
  | case2 b bytes =>
    rcases h.phase with hreading | hclosed
    · obtain ⟨c', k', rest', h', hserved', hserver, hmore⟩ :=
        h.serveRead hframing hserved houtbound hreading bytes.length
      rw [List.take_length] at hserver
      rw [List.drop_length] at hmore
      exact ⟨c', k', rest', h', hserved', hserver, fun _ => hmore⟩
    · exact h.serveReads_of_closed hserved hclosed _
  | case3 n sizes b bytes ih =>
    rcases h.phase with hreading | hclosed
    · obtain ⟨c', k', rest', h', hserved', hserver, hmore⟩ :=
        h.serveRead hframing hserved houtbound hreading n
      have hafter := ih h' hserved' hmore
      rw [hserver] at hafter
      exact hafter
    · exact h.serveReads_of_closed hserved hclosed _

/-! ## Between two asks -/

/-- A conversation with nothing on its way, in which every ask has its response. -/
def idle (s : Service) (server : Server) (i : Nat) (asked : List String) : Conversation :=
  { server := server, connection := i, asked := asked, answers := asked.map s.response }

theorem isIdle_idle (s : Service) (server : Server) (i : Nat) (asked : List String) :
    (idle s server i asked).isIdle = true := by
  simp [isIdle, idle]

theorem Aligned.eq_idle (h : Aligned s c k settled none [])
    (hanswers : c.answers = settled.map s.response) (houtbound : c.outbound = [])
    (hreader : c.reader = {}) : c = idle s c.server c.connection settled := by
  obtain ⟨-, hinbound⟩ := List.append_eq_nil_iff.1 h.flight
  have hasked := h.asked_of_none
  cases c
  simp only at hanswers houtbound hreader hinbound hasked
  rw [idle, hanswers, houtbound, hreader, hinbound, hasked]

/-- A run of a conversation in which the client asks for one more specifier and is told the
    answer. -/
structure Exchange (s : Service) (c : Conversation) (spec : String)
    (answer : Except ClientError Answer) (c' : Conversation) : Prop where
  run : ∃ acts, c.run s (.ask spec :: acts) = c'
  asked : c'.asked = c.asked ++ [spec]
  answers : c'.answers = c.answers ++ [answer]
  connection : c'.connection = c.connection

theorem exchange_refused (hidle : c.isIdle = true) (hone : Client.isOneLine spec = false) :
    Exchange s c spec (s.response spec) (c.step s (.ask spec)) := by
  have hrun : ∃ acts, c.run s (.ask spec :: acts) = c.step s (.ask spec) := ⟨[], rfl⟩
  rw [step_ask_refused hidle hone, Service.reply_of_not_isOneLine hone] at hrun ⊢
  exact ⟨hrun, rfl, rfl, rfl⟩

/-- Behind a connection that is closed, a client that asks is told that the service is gone. -/
theorem CutOff.exchange (h : CutOff s c settled none rest) (hone : Client.isOneLine spec = true) :
    ∃ c', Exchange s c spec (.error .gone) c' ∧ CutOff s c' (settled ++ [spec]) none [] := by
  obtain rfl : rest = [] := h.rest_eq.resolve_right (by simp)
  have hasked := h.ask_line hone
  have hreceive := hasked.step_receive_end 0
  refine ⟨_, ⟨⟨[.receive 0], hreceive⟩, ?_, ?_, ?_⟩, hasked.settle (.error .gone)⟩
  all_goals rw [step_ask_line (h.isIdle_iff.2 rfl) hone]

end Conversation

namespace Server

variable {s : Service} {server : Server} {i : Nat} {k : Connection}

/-- A server waits for the next ask of a client that has the responses to what it asked. -/
structure Attends (s : Service) (server : Server) (i : Nat) (asked : List String)
    (k : Connection) : Prop where
  aligned : Conversation.Aligned s (.idle s server i asked) k asked none []
  waiting : k.isWaiting = true
  reason : server.cancellation.reason = none

/-- Nothing is on its way to or from a client, and its server waits for the next ask or has closed
    the connection. -/
inductive Rests (s : Service) (server : Server) (i : Nat) (k : Connection) : Prop
  | attends {asked : List String} (h : server.Attends s i asked k)
  | closed (hk : server.connections[i]? = some k) (hclosed : k.isClosed = true)
    (hqueue : k.queue = [])

theorem Rests.connection (h : server.Rests s i k) : server.connections[i]? = some k := by
  cases h with
  | attends h => exact h.aligned.connection
  | closed hk => exact hk

/-- A server that rests has come as far as in a conversation. -/
inductive Follows (s : Service) (server : Server) (c : Conversation) (k : Connection) : Prop
  | attends {asked : List String} (h : server.Attends s c.connection asked k)
    (hc : c = .idle s server c.connection asked)
  | closed {settled : List String} (hk : server.connections[c.connection]? = some k)
    (hclosed : k.isClosed = true) (hqueue : k.queue = [])
    (hc : Conversation.CutOff s c settled none [])

theorem Follows.rests {c : Conversation} (h : server.Follows s c k) :
    server.Rests s c.connection k := by
  cases h with
  | attends h => exact .attends h
  | closed hk hclosed hqueue => exact .closed hk hclosed hqueue

end Server

namespace Conversation

variable {s : Service} {server before : Server} {i : Nat} {settled : List String} {spec : String}

/-- All is written that was asked for. The client that reads it is told the response, and the server
    rests. -/
theorem IsServed.settle (hframing : s.settings.framing = .newline)
    (hone : Client.isOneLine spec = true) {start : Conversation}
    (hstart : (idle s before i settled).step s (.ask spec) = start)
    (h : IsServed s start settled spec server)
    (hfatal : ∀ spec ∈ settled, s.isFatalAsk spec = false) :
    ∃ c k, Exchange s (idle s before i settled) spec (s.response spec) c ∧
      (server.settle s).Follows s c k ∧
      k.written = (s.framesOf settled ++ [s.frameOf spec]).map s.line := by
  obtain ⟨c, k, rest, h, ⟨⟨acts, hacts⟩, hanswers, hconnection, hqueue, hreason⟩, rfl, hall⟩ := h
  -- All bytes are read and all frames answered, so the line of the last ask is written.
  obtain rfl : rest = [s.frameOf spec] := by
    rcases h.rest_eq hframing with rfl | ⟨_, hspec, hrest⟩
    · have hreading := h.reading hfatal
      exact absurd rfl (h.rest_ne_nil hframing hreading hqueue (hall hreading))
    · cases hspec
      exact hrest
  have hflight := h.flight
  rw [List.flatMap_singleton] at hflight
  have hreceive := step_receive_all (s := s) h.not_idle hflight h.unfinished
    (n := c.inbound.length) (by omega)
  have hsettled := h.settle
  have hresponse : s.response spec = Client.answer (s.lineBytes (s.frameOf spec)) := by
    rw [Service.response, if_pos hone]
  have hrun := run_concat start s acts (.receive c.inbound.length)
  rw [hacts, hreceive, ← hresponse] at hrun
  rw [← hresponse] at hsettled
  subst hstart
  rw [step_ask_line (isIdle_idle s before i settled) hone] at hanswers hconnection
  refine ⟨_, k, ⟨⟨_, hrun⟩, h.asked, congrArg (· ++ [s.response spec]) hanswers, hconnection⟩, ?_,
    h.serves.written⟩
  rcases h.phase with hreading | hphase
  · have hidle := hsettled.eq_idle (by simp [hanswers, idle]) (hall hreading) rfl
    rw [Server.settle_of_reason (hreason hreading)]
    refine .attends ⟨?_, Connection.isWaiting_iff.2 ⟨hreading, hqueue⟩, hreason hreading⟩ hidle
    rw [← hidle]
    exact hsettled
  · have hclosed := Connection.isClosed_iff.2 ⟨.fatal, hphase⟩
    exact .closed (Server.getElem?_settle_of_closed h.connection hclosed hqueue) hclosed hqueue
      (hsettled.cutOff hframing h.connection hclosed hqueue)

end Conversation

namespace Server

variable {s : Service} {server : Server} {i : Nat} {k : Connection} {asked : List String}
  {spec : String}

/-- A specifier that is not one line is refused without the server. -/
theorem Attends.refused (h : server.Attends s i asked k) (hone : Client.isOneLine spec = false) :
    server.Attends s i (asked ++ [spec]) k ∧
      Conversation.Exchange s (.idle s server i asked) spec (s.response spec)
        (.idle s server i (asked ++ [spec])) := by
  have hidle := Conversation.isIdle_idle s server i asked
  have hnext : (Conversation.idle s server i asked).step s (.ask spec) =
      .idle s server i (asked ++ [spec]) := by
    rw [Conversation.step_ask_refused hidle hone, Service.reply_of_not_isOneLine hone]
    simp [Conversation.idle]
  rw [← hnext]
  refine ⟨⟨?_, h.waiting, h.reason⟩, Conversation.exchange_refused hidle hone⟩
  rw [← hnext]
  exact h.aligned.ask_refused hone

/-- A server that waits serves the request for one line: the line of the answer is written, and what
    the client makes of it is the response. -/
theorem Attends.serveReads (hframing : s.settings.framing = .newline)
    (h : server.Attends s i asked k) (hone : Client.isOneLine spec = true) (sizes : List Nat) :
    ∃ c k', Conversation.Exchange s (.idle s server i asked) spec (s.response spec) c ∧
      ((server.serveReads s true i (pieces sizes (encodeText spec.toList ++ [lineFeed]))).settle
        s).Follows s c k' ∧
      k'.outputAfter k.written.length = s.lineBytes (s.frameOf spec) := by
  obtain ⟨haligned, hwaiting, hreason⟩ := h
  obtain ⟨hreading, hqueue⟩ := Connection.isWaiting_iff.1 hwaiting
  have hasked := haligned.ask_line hone
  have hstep := haligned.step_ask_line hone
  generalize hstart : (Conversation.idle s server i asked).step s (.ask spec) = start at hasked hstep
  have hbegun : Conversation.Served s start start k :=
    ⟨⟨[], rfl⟩, rfl, rfl, hqueue, fun _ => hstep ▸ hreason⟩
  obtain ⟨c, k', hexchange, hfollows, hwritten⟩ :=
    (hasked.serveReads hframing hbegun sizes).settle hframing hone hstart
      (haligned.not_fatal_of_reading hreading)
  rw [hstep] at hfollows
  refine ⟨c, k', hexchange, hfollows, ?_⟩
  rw [Connection.outputAfter, hwritten, haligned.serves.written, List.append_nil, List.map_append,
    List.drop_left, List.map_singleton, List.flatMap_singleton]
  rfl

end Server

namespace Loopback

variable {l l' : Loopback} {s : Service} {link n i : Nat} {asked : List String} {k : Connection}
  {c : Conversation}

/-! ## What an ask leaves as it is -/

/-- The connection that a link belongs to. -/
def connectionOf (l : Loopback) (n : Nat) : Option Nat := l.links[n]?.bind (·.connection)

/-- Nothing changes but a link, without being connected anew, and the server. -/
structure Leaves (l : Loopback) (n : Nat) (l' : Loopback) : Prop where
  service : l'.service = l.service
  caches : l'.caches = l.caches
  connectionOf : ∀ m, l'.connectionOf m = l.connectionOf m
  links : ∀ m, n ≠ m → l'.links[m]? = l.links[m]?

theorem Leaves.refl (l : Loopback) (n : Nat) : l.Leaves n l :=
  ⟨rfl, rfl, fun _ => rfl, fun _ _ => rfl⟩

theorem Leaves.trans {l'' : Loopback} (h : l.Leaves n l') (h' : l'.Leaves n l'') :
    l.Leaves n l'' where
  service := h'.service.trans h.service
  caches := h'.caches.trans h.caches
  connectionOf m := (h'.connectionOf m).trans (h.connectionOf m)
  links m hm := (h'.links m hm).trans (h.links m hm)

/-- A change of a link that keeps its connection. -/
theorem leaves_modify (l : Loopback) (n : Nat) {f : Link → Link}
    (hf : ∀ k, (f k).connection = k.connection) :
    l.Leaves n { l with links := l.links.modify n f } where
  service := rfl
  caches := rfl
  connectionOf m := by
    rw [Loopback.connectionOf, Loopback.connectionOf, List.getElem?_modify]
    cases l.links[m]? with
    | none => rfl
    | some k =>
      dsimp only [Option.map_eq_map, Option.map_some, Option.bind_some]
      split
      · exact hf k
      · rfl
  links _ hm := List.getElem?_modify_ne f l.links hm

/-- What is delivered at a link is served on its connection. -/
theorem deliver_spec (l : Loopback) (n : Nat) (reads : List (List UInt8)) :
    l.Leaves n (l.deliver n reads) ∧ (l.deliver n reads).links = l.links ∧
      ((l.deliver n reads).server = l.server ∨ ∃ i delivered, l.connectionOf n = some i ∧
        (l.deliver n reads).server =
          (l.server.serveReads l.service delivered i reads).settle l.service) := by
  rw [deliver]
  split
  · next i reader taken present hlink =>
    refine ⟨⟨rfl, rfl, fun _ => rfl, fun _ _ => rfl⟩, rfl, Or.inr ⟨i, present, ?_, rfl⟩⟩
    rw [Loopback.connectionOf, hlink]
    rfl
  · exact ⟨.refl l n, rfl, Or.inl rfl⟩

theorem leaves_collect (l : Loopback) (n : Nat) (sizes : List Nat) :
    l.Leaves n (l.collect n sizes) := by
  refine l.leaves_modify n ?_
  intro k
  split <;> rfl

theorem leaves_readLine (l : Loopback) (n : Nat) :
    l.Leaves n (l.readLine n).2 ∧ (l.readLine n).2.server = l.server := by
  rw [readLine]
  split
  · exact ⟨.refl l n, rfl⟩
  · next k hlink =>
    refine ⟨⟨rfl, rfl, fun m => ?_, fun m hm => List.getElem?_set_ne hm⟩, rfl⟩
    rw [Loopback.connectionOf, Loopback.connectionOf]
    by_cases hm : n = m
    · subst hm
      obtain ⟨hlength, -⟩ := List.getElem?_eq_some_iff.1 hlink
      rw [List.getElem?_set_self hlength, hlink]
      rfl
    · rw [List.getElem?_set_ne hm]

/-- **What an ask does**: it leaves the other links, and is served on its own connection. -/
theorem askCut_spec (requestSizes answerSizes : List Nat) (n : Nat) (spec : String)
    (l : Loopback) :
    l.Leaves n (l.askCut requestSizes answerSizes n spec).2 ∧
      ((l.askCut requestSizes answerSizes n spec).2.server = l.server ∨
        ∃ i delivered reads, l.connectionOf n = some i ∧
          (l.askCut requestSizes answerSizes n spec).2.server =
            (l.server.serveReads l.service delivered i reads).settle l.service) := by
  rw [askCut]
  split
  · exact ⟨.refl l n, Or.inl rfl⟩
  · next bytes _ =>
    obtain ⟨hdeliver, -, hserver⟩ := l.deliver_spec n (pieces requestSizes bytes)
    have hcollect := (l.deliver n (pieces requestSizes bytes)).leaves_collect n answerSizes
    obtain ⟨hread, hsame⟩ :=
      ((l.deliver n (pieces requestSizes bytes)).collect n answerSizes).leaves_readLine n
    refine ⟨(hdeliver.trans hcollect).trans hread, ?_⟩
    dsimp only
    rw [hsame]
    rcases hserver with hsame | ⟨i, delivered, hi⟩
    · exact Or.inl hsame
    · exact Or.inr ⟨i, delivered, _, hi⟩

/-! ## Over a link that is cut -/

theorem askCut_line {spec : String} (hone : Client.isOneLine spec = true)
    (requestSizes answerSizes : List Nat) (n : Nat) (l : Loopback) :
    l.askCut requestSizes answerSizes n spec =
      let after := (l.deliver n (pieces requestSizes (encodeText spec.toList ++ [lineFeed]))).collect
        n answerSizes
      (Client.answer (after.readLine n).1, (after.readLine n).2) := by
  rw [askCut, Client.request, if_pos hone]

theorem askCut_refused {spec : String} (hone : Client.isOneLine spec = false)
    (requestSizes answerSizes : List Nat) (n : Nat) (l : Loopback) :
    l.askCut requestSizes answerSizes n spec = (s.response spec, l) := by
  simp [askCut, Client.request, Service.response, hone]

/-- A link that is connected to nothing, or to a connection that is closed. -/
structure IsCut (l : Loopback) (n : Nat) (link : Link) : Prop where
  isLink : l.links[n]? = some link
  reader : link.reader = {}
  connection : ∀ i, link.connection = some i → ∃ k, l.server.connections[i]? = some k ∧
    k.isClosed = true ∧ k.queue = [] ∧ link.taken = k.written.length

/-- A link to a closed connection, over which everything was read. -/
theorem isCut_of_closed
    (hlink : l.links[n]? = some { connection := some i, taken := k.written.length })
    (hk : l.server.connections[i]? = some k) (hclosed : k.isClosed = true) (hqueue : k.queue = []) :
    l.IsCut n { connection := some i, taken := k.written.length } := by
  refine ⟨hlink, rfl, fun j hj => ?_⟩
  cases hj
  exact ⟨k, hk, hclosed, hqueue, rfl⟩

/-- What is sent over a link that is cut is lost. -/
theorem IsCut.deliver {link : Link} (h : l.IsCut n link) (reads : List (List UInt8)) :
    (l.deliver n reads).IsCut n link := by
  obtain ⟨-, hlinks, -⟩ := l.deliver_spec n reads
  refine ⟨hlinks.symm ▸ h.isLink, h.reader, fun i hi => ?_⟩
  obtain ⟨k, hk, hclosed, hqueue, htaken⟩ := h.connection i hi
  refine ⟨k, ?_, hclosed, hqueue, htaken⟩
  obtain ⟨connection, reader, taken, present⟩ := link
  subst hi
  rw [Loopback.deliver, h.isLink]
  dsimp only [settle]
  rw [Server.serveReads_of_closed hk hclosed hqueue]
  exact Server.getElem?_settle_of_closed hk hclosed hqueue

theorem IsCut.collect {link : Link} (h : l.IsCut n link) (sizes : List Nat) :
    (l.collect n sizes).IsCut n link := by
  refine ⟨?_, h.reader, h.connection⟩
  rw [Loopback.collect]
  dsimp only
  rw [List.getElem?_modify_eq, h.isLink]
  refine congrArg some ?_
  obtain ⟨connection, reader, taken, present⟩ := link
  cases connection with
  | none => rfl
  | some i =>
    obtain ⟨k, hk, -, -, htaken⟩ := h.connection i rfl
    subst htaken
    simp [Server.outputAfter, Server.lineCount, hk, Connection.outputAfter, pieces,
      LineReader.expect]

theorem IsCut.readLine {link : Link} (h : l.IsCut n link) :
    (l.readLine n).1 = [] ∧ (l.readLine n).2.IsCut n link := by
  have hnext : link.reader.next = ([], {}) := by
    rw [h.reader]
    rfl
  obtain ⟨hlength, -⟩ := List.getElem?_eq_some_iff.1 h.isLink
  rw [Loopback.readLine, h.isLink]
  dsimp only
  rw [hnext]
  refine ⟨rfl, ?_, h.reader, h.connection⟩
  rw [List.getElem?_set_self hlength, ← h.reader]

/-- Over a link that is cut, no ask is answered. -/
theorem IsCut.askCut {link : Link} (h : l.IsCut n link) (requestSizes answerSizes : List Nat)
    {spec : String} (hone : Client.isOneLine spec = true) :
    (l.askCut requestSizes answerSizes n spec).1 = .error .gone ∧
      (l.askCut requestSizes answerSizes n spec).2.IsCut n link := by
  rw [askCut_line hone]
  obtain ⟨hnone, hcut⟩ := ((h.deliver _).collect answerSizes).readLine
  refine ⟨?_, hcut⟩
  dsimp only
  rw [hnone]
  rfl

/-! ## Asks -/

theorem deliver_eq {reader : LineReader} {taken : Nat}
    (hlink : l.links[link]? = some { connection := some i, reader, taken })
    (reads : List (List UInt8)) :
    l.deliver link reads =
      { l with server := (l.server.serveReads l.service true i reads).settle l.service } := by
  rw [deliver, hlink]
  rfl

/-- A client that reads a line which is on its way, cut anyhow. -/
theorem readLine_collect {taken : Nat}
    (hlink : l.links[link]? = some { connection := some i, taken })
    (hk : l.server.connections[i]? = some k) {line : List UInt8} (hline : lineFeed ∉ line)
    (houtput : k.outputAfter taken = line ++ [lineFeed]) (sizes : List Nat) :
    ∃ links,
      (l.collect link sizes).readLine link = (line ++ [lineFeed], { l with links := links }) ∧
      links[link]? = some { connection := some i, taken := k.written.length } := by
  have hnext : (({} : LineReader).expect (pieces sizes (line ++ [lineFeed]))).next =
      (line ++ [lineFeed], {}) :=
    LineReader.next_reads hline (fun _ => ne_nil_of_mem_pieces) (flatten_pieces sizes _)
  have hcollected : (l.collect link sizes).links[link]? =
      some { connection := some i,
             reader := ({} : LineReader).expect (pieces sizes (line ++ [lineFeed])),
             taken := k.written.length } := by
    simp [collect, hlink, Server.outputAfter, Server.lineCount, hk, houtput]
  rw [readLine, hcollected]
  dsimp only
  rw [hnext]
  refine ⟨_, rfl, ?_⟩
  obtain ⟨hlength, -⟩ := List.getElem?_eq_some_iff.1 hcollected
  exact List.getElem?_set_self hlength

/-- The client at a link has all its answers, and the server waits for its next ask. -/
structure Attends (l : Loopback) (s : Service) (link i : Nat) (asked : List String)
    (k : Connection) : Prop where
  service : l.service = s
  link : l.links[link]? = some { connection := some i, taken := k.written.length }
  server : l.server.Attends s i asked k

/-- The client at a link has come as far as in a conversation, and has read all that the server has
    written to it. -/
structure Follows (l : Loopback) (s : Service) (link : Nat) (c : Conversation) (k : Connection) :
    Prop where
  service : l.service = s
  link : l.links[link]? = some { connection := some c.connection, taken := k.written.length }
  server : l.server.Follows s c k

/-- **An ask of a client that the server waits for gets its response**, in whatever reads the bytes
    arrive, and is an exchange of the conversation. -/
theorem Attends.askCut (hframing : s.settings.framing = .newline)
    (h : l.Attends s link i asked k) (requestSizes answerSizes : List Nat) (spec : String) :
    let l' := (l.askCut requestSizes answerSizes link spec).2
    (l.askCut requestSizes answerSizes link spec).1 = s.response spec ∧
      ∃ c k', Conversation.Exchange s (.idle s l.server i asked) spec (s.response spec) c ∧
        l'.Follows s link c k' := by
  obtain ⟨rfl, hlink, hserver⟩ := h
  cases hone : Client.isOneLine spec with
  | false =>
    obtain ⟨hattends, hexchange⟩ := hserver.refused hone
    rw [askCut_refused (s := l.service) hone]
    exact ⟨rfl, _, k, hexchange, rfl, hlink, .attends hattends rfl⟩
  | true =>
    obtain ⟨c, k', hexchange, hfollows, houtput⟩ := hserver.serveReads hframing hone requestSizes
    obtain ⟨line, hline, hbytes⟩ := l.service.lineBytes_eq (l.service.frameOf spec)
    rw [askCut_line hone]
    dsimp only
    rw [deliver_eq hlink]
    generalize (Server.serveReads ..).settle l.service = server at hfollows ⊢
    have hi : c.connection = i := hexchange.connection
    have hk := hfollows.rests.connection
    rw [hi] at hk
    obtain ⟨links, hread, hlinks⟩ := readLine_collect (l := { l with server }) hlink hk hline
      (houtput.trans hbytes) answerSizes
    rw [hread]
    refine ⟨?_, c, k', hexchange, rfl, ?_, hfollows⟩
    · rw [Service.response, if_pos hone, hbytes]
    · rw [hi]
      exact hlinks

/-- **An ask of a client of a loopback is an exchange of its conversation**, whether the server
    waits for it or has closed the connection. -/
theorem Follows.askCut (hframing : s.settings.framing = .newline) (h : l.Follows s link c k)
    (requestSizes answerSizes : List Nat) (spec : String) :
    ∃ c' k', Conversation.Exchange s c spec (l.askCut requestSizes answerSizes link spec).1 c' ∧
      (l.askCut requestSizes answerSizes link spec).2.Follows s link c' k' := by
  obtain ⟨hservice, hlink, hserver⟩ := h
  cases hserver with
  | attends hattends hc =>
    obtain ⟨hanswer, c', k', hexchange, hfollows⟩ :=
      (Attends.mk hservice hlink hattends).askCut hframing requestSizes answerSizes spec
    rw [← hc, ← hanswer] at hexchange
    exact ⟨c', k', hexchange, hfollows⟩
  | closed hk hclosed hqueue hc =>
    cases hone : Client.isOneLine spec with
    | false =>
      have hidle := hc.isIdle_iff.2 rfl
      have hcut := hc.ask_refused hone
      have hexchange := Conversation.exchange_refused (s := s) hidle hone
      rw [askCut_refused (s := s) hone]
      refine ⟨_, k, hexchange, hservice, ?_, ?_⟩
      · rw [hexchange.connection]
        exact hlink
      · rw [← hexchange.connection] at hk
        exact .closed hk hclosed hqueue hcut
    | true =>
      obtain ⟨hgone, hcut'⟩ := (isCut_of_closed hlink hk hclosed hqueue).askCut requestSizes
        answerSizes hone
      obtain ⟨c', hexchange, hover⟩ := hc.exchange hone
      obtain ⟨k', hk', hclosed', hqueue', (htaken : k.written.length = k'.written.length)⟩ :=
        hcut'.connection c.connection rfl
      obtain ⟨hleaves, -⟩ := askCut_spec requestSizes answerSizes link spec l
      have hlink' := hcut'.isLink
      rw [htaken] at hlink'
      rw [← hexchange.connection] at hk' hlink'
      rw [hgone]
      exact ⟨c', k', hexchange, hleaves.service.trans hservice, hlink',
        .closed hk' hclosed' hqueue' hover⟩

/-- A client asks one specifier after the other, each with sizes of its own for the reads of the
    request and those of the answer. -/
def askEach (link : Nat) :
    List (List Nat × List Nat × String) → Loopback → List (Except ClientError Answer) × Loopback
  | [], l => ([], l)
  | (requestSizes, answerSizes, spec) :: asks, l =>
    let (answer, l) := l.askCut requestSizes answerSizes link spec
    let (answers, l) := askEach link asks l
    (answer :: answers, l)

/-- What a client is told is what it is told in a run of its conversation. -/
theorem Follows.askEach (hframing : s.settings.framing = .newline) (h : l.Follows s link c k)
    (asks : List (List Nat × List Nat × String)) :
    ∃ acts, (c.run s acts).asked = c.asked ++ asks.map (·.2.2) ∧
      (c.run s acts).answers = c.answers ++ (l.askEach link asks).1 := by
  induction asks generalizing l c k with
  | nil => exact ⟨[], (List.append_nil _).symm, (List.append_nil _).symm⟩
  | cons ask asks ih =>
    obtain ⟨requestSizes, answerSizes, spec⟩ := ask
    obtain ⟨c', k', hexchange, hfollows⟩ := h.askCut hframing requestSizes answerSizes spec
    obtain ⟨more, hasked, hanswers⟩ := ih hfollows
    obtain ⟨acts, hacts⟩ := hexchange.run
    refine ⟨(.ask spec :: acts) ++ more, ?_, ?_⟩
    · rw [Conversation.run_append, hacts, hasked, hexchange.asked]
      exact List.append_assoc ..
    · rw [Conversation.run_append, hacts, hanswers, hexchange.answers]
      exact List.append_assoc ..

/-! ## Connecting -/

/-- Whoever connects to a loopback reaches its own server, which was not asked to stop. -/
structure Reaches (l : Loopback) (attempts : Nat) : Prop where
  own : ∃ identity, SocketPath.connectRetrying attempts (fun _ => l.server.path) = .ok identity ∧
    l.server.socket = some identity
  reason : l.server.cancellation.reason = none

/-- A client that has connected to the socket of the loopback's own server. -/
theorem attends_connect (hlistening : l.server.phase = .listening) {attempts : Nat}
    (h : l.Reaches attempts) :
    (l.connect attempts).2.Attends l.service l.links.length l.server.connections.length []
        (.fresh l.service) ∧
      (l.connect attempts).2.server = l.server.step l.service .accept := by
  obtain ⟨⟨identity, hpath, hsocket⟩, hreason⟩ := h
  have hown : l.server.socket = some identity ∧ l.server.isRunning = true := by
    rw [Server.isRunning, hlistening]
    exact ⟨hsocket, rfl⟩
  rw [connect, hpath]
  dsimp only
  rw [if_pos hown, if_pos hown]
  refine ⟨⟨rfl, List.getElem?_concat_length, ?_⟩, rfl⟩
  refine ⟨(Conversation.inStep_opened hlistening).toAligned, rfl, ?_⟩
  rw [Server.reason_step, hreason]
  rfl

/-- **What a client of a loopback asks and is told is a run of a conversation** with its server,
    in whatever reads the bytes arrive. -/
theorem answers_askEach_connect (hframing : l.service.settings.framing = .newline)
    (hlistening : l.server.phase = .listening) {attempts : Nat} (h : l.Reaches attempts)
    (asks : List (List Nat × List Nat × String)) :
    ∃ acts, let c := (Conversation.opened l.service l.server).run l.service acts
      c.asked = asks.map (·.2.2) ∧
        c.answers = ((l.connect attempts).2.askEach l.links.length asks).1 := by
  obtain ⟨hattends, hserver⟩ := attends_connect hlistening h
  have hopened : Conversation.opened l.service l.server =
      .idle l.service (l.connect attempts).2.server l.server.connections.length [] := by
    rw [hserver]
    rfl
  have hfollows : (l.connect attempts).2.Follows l.service l.links.length
      (Conversation.opened l.service l.server) (.fresh l.service) :=
    ⟨hattends.service, hattends.link, .attends hattends.server hopened⟩
  exact hfollows.askEach hframing asks

end Loopback

end DepSpec
