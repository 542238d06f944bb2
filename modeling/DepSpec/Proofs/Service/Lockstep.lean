import DepSpec.Proofs.Service.LoopbackAsks

set_option autoImplicit false

/-! # Client and server stay in lockstep

Every ask of a client gets the reply to its own specifier, however the bytes of a conversation are
cut into reads. Every act keeps client and server in step (`IsInStep.step`), and so does every run.
For liveness, work that changes anything leaves less to do (`closer_step`), and as long as the
client waits there is such work (`exists_work`). -/

namespace DepSpec

namespace Conversation

variable {s : Service} {c : Conversation} {k : Connection} {settled : List String}
  {pending : Option String} {rest : List Frame}

/-! ## Every act -/

/-- Client and server are in step with each other. -/
def IsInStep (s : Service) (c : Conversation) : Prop :=
  ∃ k settled pending rest, InStep s c k settled pending rest

/-- Nothing was fatal that was asked before the last ask. -/
def FatalLast (s : Service) (c : Conversation) : Prop :=
  ∀ spec ∈ c.asked.dropLast, s.isFatalAsk spec = false

theorem InStep.not_fatal {spec : String} (h : InStep s c k settled (some spec) rest)
    (hfatal : c.FatalLast s) : ∀ spec ∈ settled, s.isFatalAsk spec = false := by
  intro earlier hearlier
  apply hfatal earlier
  rw [h.asked, Option.toList_some, List.dropLast_concat]
  exact hearlier

/-- **Every act keeps client and server in step**, as long as nothing fatal was asked before. -/
theorem IsInStep.step (hframing : s.settings.framing = .newline)
    (henvelope : s.settings.envelope = .result) (h : c.IsInStep s) (hfatal : c.FatalLast s)
    (a : Act) : (c.step s a).IsInStep s := by
  obtain ⟨k, settled, pending, rest, h⟩ := h
  cases a with
  | ask spec =>
    cases pending with
    | none =>
      cases hone : Client.isOneLine spec with
      | true => exact ⟨k, settled, some spec, rest, h.ask_line hone⟩
      | false => exact ⟨k, settled ++ [spec], none, rest, h.ask_refused hone⟩
    | some waiting =>
      rw [Conversation.step, if_neg h.not_idle]
      exact ⟨k, settled, some waiting, rest, h⟩
  | deliver n =>
    cases houtbound : c.outbound with
    | nil =>
      rw [h.step_deliver_eq_self (Or.inl houtbound)]
      exact ⟨k, settled, pending, rest, h⟩
    | cons b bytes =>
      cases hwaiting : k.isWaiting with
      | true => exact ⟨_, settled, pending, rest, h.deliver houtbound hwaiting n⟩
      | false =>
        rw [h.step_deliver_eq_self (Or.inr hwaiting)]
        exact ⟨k, settled, pending, rest, h⟩
  | respond =>
    cases hqueue : k.queue with
    | nil =>
      rw [h.step_respond_eq_self hqueue]
      exact ⟨k, settled, pending, rest, h⟩
    | cons frame queue => exact ⟨_, settled, pending, rest ++ [frame], h.respond hqueue⟩
  | receive n =>
    cases pending with
    | none =>
      rw [Conversation.step, if_pos (h.isIdle_iff.2 rfl)]
      exact ⟨k, settled, none, rest, h⟩
    | some spec =>
      obtain ⟨settled', pending', rest', h'⟩ :=
        h.receive hframing henvelope (h.not_fatal hfatal) n
      exact ⟨k, settled', pending', rest', h'⟩
  | elsewhere e => exact ⟨k, settled, pending, rest, h.elsewhere e⟩

/-! ## Runs -/

theorem asked_step_of_isWork {a : Act} (ha : a.isWork = true) :
    (c.step s a).asked = c.asked := by
  cases a with
  | ask | elsewhere => cases ha
  | deliver n =>
    rw [step]
    split
    · rfl
    · split <;> rfl
  | respond =>
    rw [step]
    split <;> rfl
  | receive n =>
    rw [step]
    split
    · rfl
    · split
      · split <;> rfl
      · dsimp only
        split <;> rfl

/-- Only an ask adds to what was asked. -/
theorem asked_step (c : Conversation) (a : Act) :
    (c.step s a).asked = c.asked ∨ ∃ spec, (c.step s a).asked = c.asked ++ [spec] := by
  cases a with
  | ask spec =>
    rw [step]
    split
    · split
      · exact Or.inr ⟨spec, rfl⟩
      · exact Or.inr ⟨spec, rfl⟩
    · exact Or.inl rfl
  | elsewhere e =>
    rw [step]
    split <;> exact Or.inl rfl
  | deliver | respond | receive => exact Or.inl (asked_step_of_isWork rfl)

theorem FatalLast.of_step {a : Act} (h : (c.step s a).FatalLast s) : c.FatalLast s := by
  intro spec hspec
  rcases asked_step (s := s) c a with hasked | ⟨next, hasked⟩
  · exact h spec (hasked ▸ hspec)
  · apply h spec
    rw [hasked, List.dropLast_concat]
    exact List.dropLast_subset _ hspec

theorem isInStep_run (hframing : s.settings.framing = .newline)
    (henvelope : s.settings.envelope = .result) (hstart : c.IsInStep s) (acts : List Act)
    (hfatal : (c.run s acts).FatalLast s) : (c.run s acts).IsInStep s := by
  -- What was not fatal in the end was not fatal before, so the hypothesis goes down with the run.
  induction acts using List.reverseRecOn with
  | nil => exact hstart
  | append_singleton acts a ih =>
    rw [run_concat] at hfatal ⊢
    exact (ih hfatal.of_step).step hframing henvelope hfatal.of_step a

/-! ## The client is answered in the end -/

/-- What is left to do for the answer that the client waits for: bytes that the server has to read,
    frames that it has to answer, bytes that the client has to read. -/
def toDo (c : Conversation) : Nat × Nat × Nat :=
  (c.outbound.length, c.server.queueLength c.connection, c.inbound.length)

/-- Less is left to do: reading makes frames, and answering makes bytes, but not the other way. -/
def Closer : Conversation → Conversation → Prop :=
  InvImage (Prod.Lex (· < ·) (Prod.Lex (· < ·) (· < ·))) toDo

theorem wellFounded_closer : WellFounded Closer :=
  InvImage.wf toDo (Prod.lex Nat.lt_wfRel (Prod.lex Nat.lt_wfRel Nat.lt_wfRel)).wf

theorem Closer.ne {c' : Conversation} (h : c'.Closer c) : c' ≠ c := by
  rintro rfl
  induction c' using wellFounded_closer.induction with
  | _ c ih => exact ih c h h

theorem closer_deliver (h : InStep s c k settled pending rest) {b : UInt8} {bytes : List UInt8}
    (houtbound : c.outbound = b :: bytes) (hwaiting : k.isWaiting = true) (n : Nat) :
    (c.step s (.deliver n)).Closer c := by
  rw [h.step_deliver houtbound hwaiting]
  apply Prod.Lex.left
  rw [houtbound, List.length_drop, List.length_cons]
  omega

theorem closer_respond (h : InStep s c k settled pending rest) {frame : Frame}
    {queue : List Frame} (hqueue : k.queue = frame :: queue) : (c.step s .respond).Closer c := by
  obtain ⟨-, -, hafter⟩ := Connection.respond_reading (s := s) (h.reading_of_queue hqueue) hqueue
  rw [h.step_respond hqueue]
  apply Prod.Lex.right
  apply Prod.Lex.left
  rw [h.queueLength_eq, hqueue, List.length_cons, Server.queueLength,
    Server.getElem?_step_respond h.isRunning h.connection, Option.map_some, Option.getD_some]
  rcases hafter with ⟨-, hafter⟩ | ⟨-, hafter⟩
  · rw [hafter]
    omega
  · rw [hafter, List.length_nil]
    omega

theorem closer_receive {b : UInt8} {bytes : List UInt8} (hidle : c.isIdle ≠ true)
    (hinbound : c.inbound = b :: bytes) (n : Nat) : (c.step s (.receive n)).Closer c := by
  have hshorter : (bytes.drop n).length < c.inbound.length := by
    rw [hinbound, List.length_drop, List.length_cons]
    omega
  simp only [step, if_neg hidle, hinbound]
  split
  · exact Prod.Lex.right _ (Prod.Lex.right _ hshorter)
  · exact Prod.Lex.right _ (Prod.Lex.right _ hshorter)

/-- Work that changes anything leaves less to do. -/
theorem closer_step (hframing : s.settings.framing = .newline) {spec : String}
    (h : InStep s c k settled (some spec) rest)
    (hfatal : ∀ spec ∈ settled, s.isFatalAsk spec = false) {a : Act} (ha : a.isWork = true)
    (hne : c.step s a ≠ c) : (c.step s a).Closer c := by
  cases a with
  | ask | elsewhere => cases ha
  | deliver n =>
    cases houtbound : c.outbound with
    | nil => exact absurd (h.step_deliver_eq_self (Or.inl houtbound) n) hne
    | cons b bytes =>
      cases hwaiting : k.isWaiting with
      | true => exact closer_deliver h houtbound hwaiting n
      | false => exact absurd (h.step_deliver_eq_self (Or.inr hwaiting) n) hne
  | respond =>
    cases hqueue : k.queue with
    | nil => exact absurd (h.step_respond_eq_self hqueue) hne
    | cons frame queue => exact closer_respond h hqueue
  | receive n =>
    cases hinbound : c.inbound with
    | nil => exact absurd (h.step_receive_eq_self hframing hfatal hinbound n) hne
    | cons b bytes => exact closer_receive h.not_idle hinbound n

/-- As long as the client waits there is something to do. -/
theorem exists_work (hframing : s.settings.framing = .newline) {spec : String}
    (h : InStep s c k settled (some spec) rest)
    (hfatal : ∀ spec ∈ settled, s.isFatalAsk spec = false) :
    ∃ a : Act, a.isWork = true ∧ (c.step s a).Closer c := by
  rcases h.rest_eq hframing with rfl | ⟨spec', hspec, rfl⟩
  · have hreading := h.reading hfatal
    cases hqueue : k.queue with
    | cons frame queue => exact ⟨.respond, rfl, closer_respond h hqueue⟩
    | nil =>
      cases houtbound : c.outbound with
      | cons b bytes =>
        have hwaiting := Connection.isWaiting_iff.2 ⟨hreading, hqueue⟩
        exact ⟨.deliver 0, rfl, closer_deliver h houtbound hwaiting 0⟩
      | nil => exact absurd rfl (h.rest_ne_nil hframing hreading hqueue houtbound)
  · cases hinbound : c.inbound with
    | nil => exact absurd hinbound h.inbound_ne_nil
    | cons b bytes => exact ⟨.receive 0, rfl, closer_receive h.not_idle hinbound 0⟩

/-- However the work goes on, the client has all its answers in the end. -/
inductive Ends (s : Service) : Conversation → Prop where
  | idle {c : Conversation} (h : c.isIdle = true) : Ends s c
  | work {c : Conversation} (hsome : ∃ a : Act, a.isWork = true ∧ c.step s a ≠ c)
    (h : ∀ a : Act, a.isWork = true → c.step s a ≠ c → Ends s (c.step s a)) : Ends s c

theorem IsInStep.ends (hframing : s.settings.framing = .newline)
    (henvelope : s.settings.envelope = .result) (h : c.IsInStep s) (hfatal : c.FatalLast s) :
    c.Ends s := by
  induction c using wellFounded_closer.induction with
  | _ c ih =>
    obtain ⟨k, settled, pending, rest, hc⟩ := id h
    cases pending with
    | none => exact .idle (hc.isIdle_iff.2 rfl)
    | some spec =>
      -- Work asks for nothing, so what was asked stays as harmless as it was.
      have hsettled := hc.not_fatal hfatal
      refine .work ?_ ?_
      · obtain ⟨a, ha, hcloser⟩ := exists_work hframing hc hsettled
        exact ⟨a, ha, hcloser.ne⟩
      · intro a ha hne
        have hafter : (c.step s a).FatalLast s := by
          rw [FatalLast, asked_step_of_isWork ha]
          exact hfatal
        exact ih _ (closer_step hframing hc hsettled ha hne)
          (h.step hframing henvelope hfatal a) hafter

/-! ## The law -/

/-- **Client and server stay in lockstep.** Whatever the client has asked, in however many reads
    the bytes of either side arrive, and whatever else happens to the server: up to the first ask
    that is fatal, each ask got the reply to its own specifier, only what is one line was sent, at
    most one ask still waits, and its answer comes however the work goes on. What a client of a
    loopback asks of this server and is told, cut into reads in any way, is one of these runs. -/
theorem asks_are_answered_in_lockstep {s : Service} (hframing : s.settings.framing = .newline)
    (henvelope : s.settings.envelope = .result) {server : Server}
    (hlistening : server.phase = .listening) (acts : List Act)
    (hfatal : ∀ spec ∈ ((opened s server).run s acts).asked.dropLast, s.isFatalAsk spec = false) :
    let c := (opened s server).run s acts
    c.answers = (c.asked.take c.answers.length).map s.reply ∧
      c.asked.length ≤ c.answers.length + 1 ∧
      (∃ k, c.server.connections[c.connection]? = some k ∧
        k.reads.flatten ++ c.outbound = Client.requests c.asked) ∧
      c.Ends s ∧
      ∀ l : Loopback, l.service = s → l.server = server → ∀ attempts, l.Reaches attempts →
        ∀ asks : List (List Nat × List Nat × String),
          ∃ acts', let c' := (opened s server).run s acts'
            c'.asked = asks.map (·.2.2) ∧
              c'.answers = ((l.connect attempts).2.askEach l.links.length asks).1 := by
  have hstart : (opened s server).IsInStep s := ⟨_, _, _, _, inStep_opened hlistening⟩
  have hrun := isInStep_run hframing henvelope hstart acts hfatal
  intro c
  have hends : c.Ends s := hrun.ends hframing henvelope hfatal
  obtain ⟨k, settled, pending, rest, h⟩ := hrun
  have hlength : c.answers.length = settled.length := by
    rw [h.answers, List.length_map]
  refine ⟨?_, ?_, ⟨k, h.connection, h.sent⟩, hends, ?_⟩
  · rw [hlength, h.asked, List.take_left]
    exact h.answers
  · rw [hlength, h.asked, List.length_append]
    exact Nat.add_le_add_left (Option.length_toList_le) _
  · rintro l rfl rfl attempts hreaches asks
    exact Loopback.answers_askEach_connect hframing hlistening hreaches asks

/-! ## Reads across two asks -/

/-- A service that takes `!` for a range with an operator that nobody knows, and any other text for
    a tag. -/
def bangService : Service where
  caps :=
    { resolve := fun _ spec =>
        .ok { kind := if spec = "!" then "range" else "tag", raw := spec, fetch := some spec },
      parseRange := fun _ => .ok [[⟨"~=", .any⟩]] }
  settings := { maxRequestBytes := 4 }

/-- A server of that service. -/
def bangServer : Server := Server.started .vacant 1 false {}

/-- A text of two lines, one that is too large, a tag, and the fatal one. The second ask is answered
    before it is read to its end, so that its end and the third ask arrive in one read. -/
def bangActs : List Act :=
  [.ask "a\nb", .ask "too long", .deliver 5, .respond, .receive 99, .ask "tag", .deliver 99,
    .respond, .receive 9, .receive 99, .ask "!", .deliver 0, .deliver 0, .respond, .receive 99]

/-- A client that goes on asking behind the fatal answer. -/
def bangAsks : List (List Nat × List Nat × String) :=
  [([0], [3, 5], "tag"), ([], [9], "!"), ([], [], "tag")]

theorem each_ask_gets_its_own_reply :
    ((opened bangService bangServer).run bangService bangActs).answers =
        ["a\nb", "too long", "tag", "!"].map bangService.reply ∧
      ∃ acts, ((opened bangService bangServer).run bangService acts).answers =
        ["tag", "!"].map bangService.reply ++ [.error .gone] := by
  have hasked : ((opened bangService bangServer).run bangService bangActs).asked =
      ["a\nb", "too long", "tag", "!"] := by decide +kernel
  have hlength : ((opened bangService bangServer).run bangService bangActs).answers.length = 4 := by
    decide +kernel
  obtain ⟨hanswers, -, -, -, hloopback⟩ := asks_are_answered_in_lockstep rfl rfl
    (show bangServer.phase = .listening from rfl) bangActs (by rw [hasked]; decide +kernel)
  refine ⟨?_, ?_⟩
  · rw [hanswers, hlength, hasked]
    rfl
  · obtain ⟨acts, -, htold⟩ := hloopback { service := bangService, server := bangServer } rfl rfl 1
      ⟨⟨1, rfl, rfl⟩, rfl⟩ bangAsks
    refine ⟨acts, ?_⟩
    rw [htold]
    decide +kernel

end Conversation

end DepSpec
