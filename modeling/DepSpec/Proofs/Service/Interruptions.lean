import DepSpec.Proofs.Service.InStep
import DepSpec.Service.Sharing
import Mathlib.Data.List.Forall2

set_option autoImplicit false

/-! # Conversations that are broken off

Whatever a server does to a connection, its client is never told a wrong answer: each ask gets the
response to its own specifier, or the news that the service is gone (`Faithful.answered`).

As long as the connection is open, client and server are aligned (`Aligned`). When it closes, the
server's part is over: the line of the ask that waits may still be on its way, and nothing else is
(`CutOff`). Either way no answer can be taken for that to another ask. -/

namespace DepSpec

open Text

/-- What a client makes of the response to a specifier, in whichever envelope it comes. -/
def Service.response (s : Service) (spec : String) : Except ClientError Answer :=
  if Client.isOneLine spec then Client.answer (s.lineBytes (s.frameOf spec))
  else .error (.lineBreak spec)

/-- In the result envelope, the client reads what the service has to say. -/
theorem Service.response_eq_reply {s : Service} (henvelope : s.settings.envelope = .result)
    (spec : String) : s.response spec = s.reply spec := by
  cases hone : Client.isOneLine spec with
  | true =>
    rw [response, hone, if_pos rfl, Client.answer_lineBytes henvelope, reply_of_isOneLine hone]
  | false =>
    rw [response, reply, hone]
    rfl

theorem Service.reply_of_not_isOneLine {s : Service} {spec : String}
    (h : Client.isOneLine spec = false) : s.reply spec = s.response spec := by
  rw [response, reply, h]
  rfl

/-- A reader that has nothing and gets nothing reads nothing. -/
theorem LineReader.nextFrom_of_flatten {reads : List (List UInt8)} (h : reads.flatten = []) :
    nextFrom [] reads = ([], {}) := by
  induction reads with
  | nil => rfl
  | cons bytes reads ih =>
    obtain ⟨rfl, hreads⟩ := List.append_eq_nil_iff.1 h
    exact ih hreads

theorem LineReader.next_of_heard {r : LineReader} (h : r.heard = []) : r.next = ([], {}) := by
  obtain ⟨hbuffer, hincoming⟩ := List.append_eq_nil_iff.1 h
  rw [next, hbuffer, nextFrom_of_flatten hincoming]

namespace Server

variable {s : Service} {server : Server} {i : Nat} {k k' : Connection}

/-- A connection that is closed stays so. -/
theorem isClosed_move {e : Event} (hm : Move s server i e k k') (h : k.isClosed = true) :
    k'.isClosed = true := by
  obtain ⟨why, hphase⟩ := Connection.isClosed_iff.1 h
  have hbusy : k.isWaiting = false := by
    rw [Connection.isWaiting, hphase]
    rfl
  cases hm with
  | idle => exact h
  | read bytes =>
    rw [Connection.read, hbusy]
    exact h
  | respond delivered =>
    unfold Connection.respond
    split
    · exact h
    · split
      · rfl
      · dsimp only
        split
        · rfl
        · rw [Connection.closeIfDone, if_neg]
          · exact h
          · rintro ⟨hflushing, -⟩
            rw [hphase] at hflushing
            cases hflushing
  | lose hwaiting | notice hwaiting =>
    rw [hbusy] at hwaiting
    cases hwaiting
  | finish => rfl

/-- What may close an open connection does so, or changes nothing about it. -/
theorem step_breaks
    (hrunning : server.isRunning = true) (hk : server.connections[i]? = some k)
    (hreading : k.phase = .reading) {e : Event} (he : e.breaks i = true) :
    (server.step s e).isRunning = true ∧ (server.step s e).connections[i]? = some k ∨
      ∃ k', (server.step s e).connections[i]? = some k' ∧ k'.isClosed = true ∧ k'.queue = [] := by
  obtain ⟨k', hk', hmove⟩ := exists_move s hk e
  cases hmove with
  | idle =>
    -- The last step of a stop closes what is open only once the stop has begun.
    by_cases hfinish : e = .finish
    · subst hfinish
      rw [step, finish]
      split
      · right
        refine ⟨k.close .shutdown, ?_, rfl, rfl⟩
        simp [hk, Connection.isClosed, hreading]
      · exact Or.inl ⟨hrunning, hk⟩
    · exact Or.inl ⟨isRunning_step hrunning hfinish, hk'⟩
  | read bytes => cases he
  | respond delivered =>
    obtain rfl : delivered = false := by
      simpa [Event.breaks] using he
    cases hqueue : k.queue with
    | nil =>
      rw [Connection.respond, hqueue] at hk'
      exact Or.inl ⟨isRunning_step hrunning (by simp), hk'⟩
    | cons frame queue =>
      rw [Connection.respond, hqueue] at hk'
      exact Or.inr ⟨_, hk', rfl, rfl⟩
  | lose | notice | finish => exact Or.inr ⟨_, hk', rfl, rfl⟩

end Server

namespace Conversation

variable {s : Service} {c : Conversation} {k : Connection} {settled : List String}
  {pending : Option String} {rest : List Frame}

/-- An ask has got the response to it, or the news that there is none. -/
def Answered (s : Service) (spec : String) (answer : Except ClientError Answer) : Prop :=
  answer = s.response spec ∨ answer = .error .gone

/-! ## Behind a connection that is closed -/

/-- The connection of the client is closed, and at most the answer that it waits for is still on its
    way. -/
structure CutOff (s : Service) (c : Conversation) (settled : List String)
    (pending : Option String) (rest : List Frame) : Prop where
  connection : ∃ k, c.server.connections[c.connection]? = some k ∧ k.isClosed = true ∧ k.queue = []
  asked : c.asked = settled ++ pending.toList
  answered : c.answers.length = settled.length
  oneLine : ∀ spec, pending = some spec → Client.isOneLine spec = true
  rest_eq : rest = [] ∨ ∃ spec, pending = some spec ∧ rest = [s.frameOf spec]
  flight : c.reader.heard ++ c.inbound = rest.flatMap s.lineBytes
  unfinished : lineFeed ∉ c.reader.heard

theorem Aligned.cutOff (hframing : s.settings.framing = .newline)
    (h : Aligned s c k settled pending rest) {server : Server} {k' : Connection}
    (hk' : server.connections[c.connection]? = some k') (hclosed : k'.isClosed = true)
    (hqueue : k'.queue = []) : CutOff s { c with server := server } settled pending rest where
  connection := ⟨k', hk', hclosed, hqueue⟩
  asked := h.asked
  answered := h.answered
  oneLine := h.oneLine
  rest_eq := h.rest_eq hframing
  flight := h.flight
  unfinished := h.unfinished

namespace CutOff

theorem isIdle_iff (h : CutOff s c settled pending rest) : c.isIdle = true ↔ pending = none := by
  rw [isIdle, h.asked, h.answered, List.length_append, beq_iff_eq]
  cases pending <;> simp

theorem not_idle {spec : String} (h : CutOff s c settled (some spec) rest) : c.isIdle ≠ true := by
  rw [Ne, h.isIdle_iff]
  exact Option.some_ne_none spec

/-- What happens to the server leaves a closed connection as it is. -/
theorem server_step (h : CutOff s c settled pending rest) (e : Server.Event) :
    CutOff s { c with server := c.server.step s e } settled pending rest := by
  obtain ⟨k, hk, hclosed, hqueue⟩ := h.connection
  obtain ⟨k', hk', hmove⟩ := Server.exists_move s hk e
  rw [Server.move_closed hmove hclosed hqueue] at hk'
  exact { h with connection := ⟨k, hk', hclosed, hqueue⟩ }

theorem step_deliver_eq_self (h : CutOff s c settled pending rest) (n : Nat) :
    c.step s (.deliver n) = c := by
  obtain ⟨k, hk, hclosed, -⟩ := h.connection
  obtain ⟨why, hphase⟩ := Connection.isClosed_iff.1 hclosed
  have hbusy : c.connectionIs (·.isWaiting) = false := by
    rw [connectionIs, hk, Option.any_some, Connection.isWaiting, hphase]
    rfl
  rw [step, hbusy]
  cases c.outbound <;> rfl

theorem step_respond_eq_self (h : CutOff s c settled pending rest) : c.step s .respond = c := by
  obtain ⟨k, hk, -, hqueue⟩ := h.connection
  rw [step, Server.queueLength, hk, Option.map_some, hqueue]
  rfl

theorem ask_line (h : CutOff s c settled none rest) {spec : String}
    (hone : Client.isOneLine spec = true) :
    CutOff s (c.step s (.ask spec)) settled (some spec) rest := by
  rw [step_ask_line (h.isIdle_iff.2 rfl) hone]
  exact { h with
    asked := congrArg (· ++ [spec]) (h.asked.trans (List.append_nil settled))
    oneLine := fun spec' hspec => Option.some.inj hspec ▸ hone
    rest_eq := Or.inl (h.rest_eq.resolve_right nofun) }

theorem ask_refused (h : CutOff s c settled none rest) {spec : String}
    (hone : Client.isOneLine spec = false) :
    CutOff s (c.step s (.ask spec)) (settled ++ [spec]) none rest := by
  rw [step_ask_refused (h.isIdle_iff.2 rfl) hone]
  exact { h with
    asked := by
      rw [h.asked, Option.toList_none, List.append_nil, List.append_nil]
    answered := by
      rw [List.length_append, List.length_append, h.answered]
      rfl }

/-- The ask that waits gets an answer, with which nothing is left on its way. -/
theorem settle {spec : String} (h : CutOff s c settled (some spec) rest)
    (answer : Except ClientError Answer) :
    CutOff s { c with answers := c.answers ++ [answer], inbound := [], reader := {} }
      (settled ++ [spec]) none [] :=
  { h with
    asked := h.asked.trans (List.append_nil _).symm
    answered := by
      rw [List.length_append, List.length_append, h.answered]
      rfl
    oneLine := nofun
    rest_eq := Or.inl rfl
    flight := rfl
    unfinished := List.not_mem_nil }

/-- With nothing on its way, the client sees the end of the stream. -/
theorem step_receive_end {spec : String} (h : CutOff s c settled (some spec) []) (n : Nat) :
    c.step s (.receive n) =
      { c with answers := c.answers ++ [.error .gone], inbound := [], reader := {} } := by
  obtain ⟨k, hk, hclosed, -⟩ := h.connection
  obtain ⟨hheard, hinbound⟩ := List.append_eq_nil_iff.1 h.flight
  have hend : c.connectionIs (·.isClosed) = true := by
    rw [connectionIs, hk, Option.any_some, hclosed]
  rw [step, if_neg h.not_idle, hinbound]
  dsimp only
  rw [if_pos hend, takeAnswer, LineReader.next_of_heard hheard]
  exact congrArg (fun inbound => ({ c with
    answers := c.answers ++ [.error .gone], inbound := inbound, reader := {} } : Conversation)) hinbound

/-- The client reads a part of the line that is on its way, or gets its answer. -/
theorem receive {spec : String} (h : CutOff s c settled (some spec) rest) (n : Nat) :
    CutOff s (c.step s (.receive n)) settled (some spec) rest ∧
        (c.step s (.receive n)).answers = c.answers ∨
      ∃ answer, Answered s spec answer ∧
        c.step s (.receive n) =
          { c with answers := c.answers ++ [answer], inbound := [], reader := {} } := by
  -- Nothing is on its way but the line for this very ask.
  rcases h.rest_eq with rfl | ⟨_, hspec, rfl⟩
  · exact Or.inr ⟨_, Or.inr rfl, h.step_receive_end n⟩
  · cases hspec
    have hflight := h.flight
    rw [List.flatMap_singleton] at hflight
    rcases step_receive_line h.not_idle hflight h.unfinished n with
      hstep | ⟨inbound, reader, hstep, hflight, hunfinished⟩
    · exact Or.inr ⟨_, Or.inl (by rw [Service.response, if_pos (h.oneLine spec rfl)]), hstep⟩
    · rw [hstep]
      refine Or.inl ⟨{ h with flight := ?_, unfinished := hunfinished }, rfl⟩
      rw [List.flatMap_singleton]
      exact hflight

end CutOff

/-! ## Every act -/

/-- As long as the connection of the client is open, every ask that is settled has got its response;
    when it is closed, there may be the news that the service is gone instead. -/
inductive Faithful (s : Service) (c : Conversation) : Prop
  | aligned {k : Connection} {settled : List String} {pending : Option String} {rest : List Frame}
    (h : Aligned s c k settled pending rest) (hreading : k.phase = .reading)
    (hanswers : c.answers = settled.map s.response)
  | cutOff {settled : List String} {pending : Option String} {rest : List Frame}
    (h : CutOff s c settled pending rest) (hanswers : List.Forall₂ (Answered s) settled c.answers)

theorem faithful_opened {server : Server} (h : server.phase = .listening) :
    (opened s server).Faithful s :=
  .aligned (inStep_opened h).toAligned rfl rfl

theorem answered_concat {answers : List (Except ClientError Answer)}
    (h : List.Forall₂ (Answered s) settled answers) {spec : String}
    {answer : Except ClientError Answer} (hanswer : Answered s spec answer) :
    List.Forall₂ (Answered s) (settled ++ [spec]) (answers ++ [answer]) :=
  List.rel_append h (.cons hanswer .nil)

theorem answered_map (s : Service) (settled : List String) :
    List.Forall₂ (Answered s) settled (settled.map s.response) :=
  List.forall₂_map_right_iff.2 (List.forall₂_same.2 fun _ _ => Or.inl rfl)

theorem CutOff.faithful_step (h : CutOff s c settled pending rest)
    (hanswers : List.Forall₂ (Answered s) settled c.answers) (a : Act) :
    (c.step s a).Faithful s := by
  cases a with
  | ask spec =>
    cases pending with
    | none =>
      cases hone : Client.isOneLine spec with
      | true =>
        refine .cutOff (h.ask_line hone) ?_
        rw [step_ask_line (h.isIdle_iff.2 rfl) hone]
        exact hanswers
      | false =>
        refine .cutOff (h.ask_refused hone) ?_
        rw [step_ask_refused (h.isIdle_iff.2 rfl) hone]
        exact answered_concat hanswers (Or.inl (Service.reply_of_not_isOneLine hone))
    | some waiting =>
      rw [step, if_neg h.not_idle]
      exact .cutOff h hanswers
  | deliver n =>
    rw [h.step_deliver_eq_self]
    exact .cutOff h hanswers
  | respond =>
    rw [h.step_respond_eq_self]
    exact .cutOff h hanswers
  | receive n =>
    cases pending with
    | none =>
      rw [step, if_pos (h.isIdle_iff.2 rfl)]
      exact .cutOff h hanswers
    | some spec =>
      rcases h.receive n with ⟨hcut, hsame⟩ | ⟨answer, hanswer, hstep⟩
      · exact .cutOff hcut (hsame ▸ hanswers)
      · rw [hstep]
        exact .cutOff (h.settle answer) (answered_concat hanswers hanswer)
  | elsewhere e =>
    rw [step]
    split
    · exact .cutOff h hanswers
    · exact .cutOff (h.server_step e) hanswers

theorem Aligned.faithful_step (hframing : s.settings.framing = .newline)
    (h : Aligned s c k settled pending rest) (hreading : k.phase = .reading)
    (hanswers : c.answers = settled.map s.response) (a : Act) : (c.step s a).Faithful s := by
  cases a with
  | ask spec =>
    cases pending with
    | none =>
      cases hone : Client.isOneLine spec with
      | true =>
        refine .aligned (h.ask_line hone) hreading ?_
        rw [h.step_ask_line hone]
        exact hanswers
      | false =>
        refine .aligned (h.ask_refused hone) hreading ?_
        rw [h.step_ask_refused hone, hanswers, Service.reply_of_not_isOneLine hone,
          List.map_append, List.map_singleton]
    | some waiting =>
      rw [step, if_neg h.not_idle]
      exact .aligned h hreading hanswers
  | deliver n =>
    cases houtbound : c.outbound with
    | nil =>
      rw [h.step_deliver_eq_self (Or.inl houtbound)]
      exact .aligned h hreading hanswers
    | cons b bytes =>
      cases hwaiting : k.isWaiting with
      | true =>
        exact .aligned (h.deliver houtbound hwaiting n) (Connection.phase_read hwaiting (by simp))
          ((answers_step (.deliver n) (by simp) (by simp)).trans hanswers)
      | false =>
        rw [h.step_deliver_eq_self (Or.inr hwaiting)]
        exact .aligned h hreading hanswers
  | respond =>
    cases hqueue : k.queue with
    | nil =>
      rw [h.step_respond_eq_self hqueue]
      exact .aligned h hreading hanswers
    | cons frame queue =>
      have hafter := h.respond hqueue
      have hsame : (c.step s .respond).answers = settled.map s.response :=
        (answers_step .respond (by simp) (by simp)).trans hanswers
      obtain ⟨-, -, hphase⟩ := Connection.respond_reading (s := s) hreading hqueue
      rcases hphase with ⟨hreading', -⟩ | ⟨hclosed, hqueue'⟩
      · exact .aligned hafter hreading' hsame
      · -- the answer was fatal
        exact .cutOff (hafter.cutOff hframing hafter.connection
          (Connection.isClosed_iff.2 ⟨_, hclosed⟩) hqueue') (hsame ▸ answered_map s settled)
  | receive n =>
    cases pending with
    | none =>
      rw [step, if_pos (h.isIdle_iff.2 rfl)]
      exact .aligned h hreading hanswers
    | some spec =>
      rcases h.receive hframing (h.not_fatal_of_reading hreading) n with
        ⟨hafter, hsame⟩ | ⟨rfl, hstep⟩
      · exact .aligned hafter hreading (hsame.trans hanswers)
      · rw [hstep]
        refine .aligned h.settle hreading ?_
        rw [hanswers, List.map_append, List.map_singleton, Service.response,
          if_pos (h.oneLine spec rfl)]
  | elsewhere e =>
    exact .aligned (h.elsewhere e) hreading
      ((answers_step (.elsewhere e) (by simp) (by simp)).trans hanswers)

/-! ## Every turn -/

theorem Aligned.faithful_breakOff (hframing : s.settings.framing = .newline)
    (h : Aligned s c k settled pending rest) (hreading : k.phase = .reading)
    (hanswers : c.answers = settled.map s.response) {e : Server.Event}
    (he : e.breaks c.connection = true) :
    ({ c with server := c.server.step s e } : Conversation).Faithful s := by
  rcases Server.step_breaks h.isRunning h.connection hreading he with
    ⟨hrunning, hk⟩ | ⟨k', hk', hclosed, hqueue⟩
  · exact .aligned { h with isRunning := hrunning, connection := hk } hreading hanswers
  · exact .cutOff (h.cutOff hframing hk' hclosed hqueue) (hanswers ▸ answered_map s settled)

/-- **Every turn keeps a conversation faithful**, whatever the server does to the connection. -/
theorem Faithful.turn (hframing : s.settings.framing = .newline) (h : c.Faithful s) (t : Turn) :
    (c.turn s t).Faithful s := by
  cases t with
  | act a =>
    cases h with
    | aligned h hreading hanswers => exact h.faithful_step hframing hreading hanswers a
    | cutOff h hanswers => exact h.faithful_step hanswers a
  | breakOff e =>
    rw [Conversation.turn]
    split
    · next he =>
      cases h with
      | aligned h hreading hanswers => exact h.faithful_breakOff hframing hreading hanswers he
      | cutOff h hanswers => exact .cutOff (h.server_step e) hanswers
    · exact h

theorem Faithful.turns (hframing : s.settings.framing = .newline) (h : c.Faithful s)
    (ts : List Turn) : (c.turns s ts).Faithful s := by
  induction ts generalizing c with
  | nil => exact h
  | cons t ts ih => exact ih (h.turn hframing t)

/-! ## What the client is told -/

/-- Whether the server has closed the connection of the client. -/
def isClosed (c : Conversation) : Bool := c.connectionIs (·.isClosed)

/-- A turn does one thing to the server, or nothing. -/
theorem turn_server (c : Conversation) (t : Turn) :
    (c.turn s t).connection = c.connection ∧
      ((c.turn s t).server = c.server ∨ ∃ e, (c.turn s t).server = c.server.step s e) := by
  cases t with
  | breakOff e =>
    rw [turn]
    split
    · exact ⟨rfl, Or.inr ⟨e, rfl⟩⟩
    · exact ⟨rfl, Or.inl rfl⟩
  | act a =>
    rw [turn]
    cases a with
    | ask spec =>
      rw [step]
      split
      · split <;> exact ⟨rfl, Or.inl rfl⟩
      · exact ⟨rfl, Or.inl rfl⟩
    | deliver n =>
      rw [step]
      split
      · exact ⟨rfl, Or.inl rfl⟩
      · next b bytes _ =>
        split
        · exact ⟨rfl, Or.inr ⟨.read c.connection (b :: bytes.take n), rfl⟩⟩
        · exact ⟨rfl, Or.inl rfl⟩
    | respond =>
      rw [step]
      split
      · exact ⟨rfl, Or.inl rfl⟩
      · exact ⟨rfl, Or.inr ⟨.respond c.connection true, rfl⟩⟩
    | receive n =>
      rw [step]
      split
      · exact ⟨rfl, Or.inl rfl⟩
      · split
        · split <;> exact ⟨rfl, Or.inl rfl⟩
        · dsimp only
          split <;> exact ⟨rfl, Or.inl rfl⟩
    | elsewhere e =>
      rw [step]
      split
      · exact ⟨rfl, Or.inl rfl⟩
      · exact ⟨rfl, Or.inr ⟨e, rfl⟩⟩

/-- A connection that is closed is never opened again. -/
theorem isClosed_turn (h : c.isClosed = true) (t : Turn) : (c.turn s t).isClosed = true := by
  obtain ⟨hconnection, hserver⟩ := c.turn_server (s := s) t
  rw [isClosed, connectionIs, hconnection]
  rw [isClosed, connectionIs] at h
  rcases hserver with hsame | ⟨e, hstep⟩
  · rw [hsame]
    exact h
  · rw [hstep]
    obtain ⟨k, hk, hclosed⟩ := (Option.any_eq_true _ _).1 h
    obtain ⟨k', hk', hmove⟩ := Server.exists_move s hk e
    rw [hk', Option.any_some]
    exact Server.isClosed_move hmove hclosed

theorem exchanges_eq (hasked : c.asked = settled ++ pending.toList)
    (hanswered : c.answers.length = settled.length) : c.exchanges = settled.zip c.answers := by
  rw [exchanges, hasked, ← List.append_nil c.answers, List.zip_append hanswered.symm,
    List.zip_nil_right, List.append_nil, List.append_nil]

/-- **An answer is the response to its own ask**, or tells that the service is gone, which it only
    does behind a connection that is closed. -/
theorem Faithful.answered (h : c.Faithful s) {spec : String} {answer : Except ClientError Answer}
    (hmem : (spec, answer) ∈ c.exchanges) :
    answer = s.response spec ∨ answer = .error .gone ∧ c.isClosed = true := by
  cases h with
  | @aligned k settled pending rest h hreading hanswers =>
    have hall : List.Forall₂ (fun spec answer => answer = s.response spec) settled c.answers := by
      rw [hanswers, List.forall₂_map_right_iff, List.forall₂_same]
      exact fun _ _ => rfl
    rw [exchanges_eq h.asked h.answered] at hmem
    exact Or.inl ((List.forall₂_iff_zip.1 hall).2 hmem)
  | cutOff h hanswers =>
    rw [exchanges_eq h.asked h.answered] at hmem
    obtain ⟨k, hk, hclosed, -⟩ := h.connection
    refine ((List.forall₂_iff_zip.1 hanswers).2 hmem).imp_right fun hgone => ⟨hgone, ?_⟩
    rw [isClosed, connectionIs, hk, Option.any_some, hclosed]

end Conversation

end DepSpec
