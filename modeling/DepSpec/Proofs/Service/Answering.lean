import DepSpec.Proofs.Service.Framing
import DepSpec.Proofs.Service.ResponseLines
import DepSpec.Proofs.Service.Runs

set_option autoImplicit false

/-! # Connections answer their own frames in order

Whatever happens to a server and in whatever order, each connection has answered a prefix of the
frames of what it has read itself (`Frame.ofReads`). `Connection.Serves` is the invariant of one
connection: which frames are answered, and where the others are, phase by phase. Reading and
answering keep it, and so does closing, hence every move of a server. What a connection reads is
told from the events alone (`Server.taken`), and so is why it was closed (`Server.Explains`). -/

namespace DepSpec

open Text

/-! ## The frames of what was read -/

namespace Frame

/-- The frame of a read that is a request of its own. -/
def ofChunk (maxBytes : Nat) (bytes : List UInt8) : Frame :=
  if maxBytes < bytes.length then .tooLarge else .request (String.ofList (decodeText bytes))

/-- The frames of a stream that arrived in these reads and has ended. With line framing the cuts
    between the reads do not matter. -/
def ofReads (framing : Framing) (maxBytes : Nat) (reads : List (List UInt8)) : List Frame :=
  match framing with
  | .newline => ofStream maxBytes reads.flatten
  | .chunk => reads.map (ofChunk maxBytes)

end Frame

namespace Framer

theorem push_chunk {f : Framer} (h : f.framing = .chunk) (bytes : List UInt8) :
    f.push bytes = ([Frame.ofChunk f.maxBytes bytes], f) := by
  unfold push Frame.ofChunk
  rw [h]
  dsimp only
  split <;> rfl

theorem pushAll_chunk {f : Framer} (h : f.framing = .chunk) (reads : List (List UInt8)) :
    f.pushAll reads = (reads.map (Frame.ofChunk f.maxBytes), f) := by
  induction reads with
  | nil => rfl
  | cons bytes reads ih =>
    rw [pushAll, push_chunk h]
    dsimp only
    rw [ih]
    rfl

/-- A framer gives the frames of its reads, with either framing. -/
theorem pushAll_append_finish (framing : Framing) (maxBytes : Nat) (reads : List (List UInt8)) :
    ((fresh framing maxBytes).pushAll reads).1 ++
        ((fresh framing maxBytes).pushAll reads).2.finish.1.toList =
      Frame.ofReads framing maxBytes reads := by
  cases framing with
  | chunk =>
    rw [pushAll_chunk rfl]
    exact List.append_nil _
  | newline =>
    obtain ⟨htold, hholds⟩ := told_pushAll (holds_fresh maxBytes) List.not_mem_nil reads
    rw [List.nil_append] at htold hholds
    rw [Frame.ofReads, ← told_finish hholds, ← htold]
    simp [Frame.told, Frame.cutLines]

end Framer

namespace Connection

variable (s : Service) (c : Connection)

/-- What the framer made of the reads so far. -/
def cut : List Frame × Framer := (fresh s).framer.pushAll c.reads

/-- The frames of what the connection has read, as if its stream had ended. -/
def frames : List Frame := Frame.ofReads s.settings.framing s.maxBytes c.reads

theorem cut_append_finish : (c.cut s).1 ++ (c.cut s).2.finish.1.toList = c.frames s :=
  Framer.pushAll_append_finish ..

theorem cut_append (reads : List (List UInt8)) :
    (c.cut s).1 <+: Frame.ofReads s.settings.framing s.maxBytes (c.reads ++ reads) := by
  rw [← Framer.pushAll_append_finish, Framer.pushAll_append, List.append_assoc]
  exact List.prefix_append ..

/-- The frames that may be answered: the one of an unfinished line only when the stream has
    ended. -/
def told (ended : Bool) : List Frame := if ended then c.frames s else (c.cut s).1

theorem told_prefix_frames (ended : Bool) : c.told s ended <+: c.frames s := by
  cases ended with
  | true => exact List.prefix_rfl
  | false => exact ⟨_, c.cut_append_finish s⟩

/-! ## The invariant of a connection -/

/-- Where the frames are that are told and not answered yet: in the queue or, after the connection
    was closed early, nowhere. -/
def Due (ended : Bool) (done : List Frame) : Prop :=
  match c.phase with
  | .reading => ended = false ∧ done ++ c.queue = c.told s ended ∧ c.framer = (c.cut s).2
  | .flushing => ended = true ∧ done ++ c.queue = c.told s ended
  | .closed .finished => ended = true ∧ done = c.told s ended ∧ c.queue = []
  | .closed _ => done <+: c.told s ended ∧ c.queue = []

/-- The connection, whose stream may have ended, has answered the frames `done`, in order, and none
    behind a fatal one. -/
structure Serves (ended : Bool) (done : List Frame) : Prop where
  written : c.written = done.map s.line
  due : c.Due s ended done
  fatal_last : ∀ frame ∈ done.dropLast, s.isFatal frame = false
  closed_fatal : (∃ frame ∈ done, s.isFatal frame = true) ↔ c.phase = .closed .fatal

variable {s c} {ended : Bool} {done : List Frame}

/-- Queued frames come next. -/
theorem Serves.queued_prefix (h : c.Serves s ended done) :
    done ++ c.queue <+: c.told s ended := by
  have hdue := h.due
  unfold Due at hdue
  split at hdue
  · exact hdue.2.1 ▸ List.prefix_rfl
  · exact hdue.2 ▸ List.prefix_rfl
  · rw [hdue.2.2, List.append_nil]
    exact hdue.2.1 ▸ List.prefix_rfl
  · rw [hdue.2, List.append_nil]
    exact hdue.1

theorem Serves.prefix_told (h : c.Serves s ended done) : done <+: c.told s ended :=
  (List.prefix_append done c.queue).trans h.queued_prefix

theorem Serves.queue_of_closed (h : c.Serves s ended done) (hclosed : c.isClosed = true) :
    c.queue = [] := by
  obtain ⟨why, hphase⟩ := isClosed_iff.1 hclosed
  have hdue := h.due
  rw [Due, hphase] at hdue
  cases why with
  | finished => exact hdue.2.2
  | lost | fatal | shutdown => exact hdue.2

theorem Serves.open_of_queue {frame : Frame} {queue : List Frame} (h : c.Serves s ended done)
    (hqueue : c.queue = frame :: queue) : c.isClosed = false := by
  by_contra hclosed
  rw [h.queue_of_closed (by simpa using hclosed)] at hqueue
  cases hqueue

/-- No answer of a connection that is still open was fatal. -/
theorem Serves.not_fatal (h : c.Serves s ended done) (hopen : c.isClosed = false) :
    ∀ frame ∈ done, s.isFatal frame = false := by
  intro frame hframe
  by_contra hfatal
  have hphase := h.closed_fatal.1 ⟨frame, hframe, by simpa using hfatal⟩
  rw [isClosed, hphase] at hopen
  cases hopen

/-- When the stream has ended, only the queue is left to answer. -/
theorem Serves.flushing (h : c.Serves s ended done) (hphase : c.phase = .flushing) :
    done ++ c.queue = c.frames s := by
  have hdue := h.due
  rw [Due, hphase] at hdue
  obtain ⟨rfl, hdue⟩ := hdue
  exact hdue

theorem Serves.finished (h : c.Serves s ended done) (hphase : c.phase = .closed .finished) :
    ended = true ∧ done = c.frames s := by
  have hdue := h.due
  rw [Due, hphase] at hdue
  obtain ⟨rfl, hdone, -⟩ := hdue
  exact ⟨rfl, hdone⟩

/-- Only a fatal answer takes more than the first two parts. -/
theorem Serves.of_not_fatal (hwritten : c.written = done.map s.line) (hdue : c.Due s ended done)
    (hfatal : ∀ frame ∈ done, s.isFatal frame = false) (hphase : c.phase ≠ .closed .fatal) :
    c.Serves s ended done where
  written := hwritten
  due := hdue
  fatal_last := fun frame hframe => hfatal frame (List.dropLast_subset _ hframe)
  closed_fatal := by
    refine iff_of_false ?_ hphase
    rintro ⟨frame, hframe, hf⟩
    rw [hfatal frame hframe] at hf
    cases hf

/-! ## What keeps it -/

theorem serves_fresh (s : Service) : (fresh s).Serves s false [] :=
  .of_not_fatal rfl ⟨rfl, rfl, rfl⟩ (fun _ h => absurd h List.not_mem_nil) nofun

theorem Serves.close (h : c.Serves s ended done) (hopen : c.isClosed = false) {why : Closure}
    (hwhy : why = .lost ∨ why = .shutdown) : (c.close why).Serves s ended done := by
  refine .of_not_fatal h.written ?_ (h.not_fatal hopen) ?_
  · rcases hwhy with rfl | rfl <;> exact ⟨h.prefix_told, rfl⟩
  · rcases hwhy with rfl | rfl <;> exact nofun

theorem Serves.closeIfDone (h : c.Serves s ended done) : c.closeIfDone.Serves s ended done := by
  rcases closeIfDone_eq c with heq | ⟨hphase, hqueue, heq⟩
  · rw [heq]
    exact h
  · have hdue := h.due
    rw [Due, hphase, hqueue, List.append_nil] at hdue
    rw [heq]
    exact .of_not_fatal h.written ⟨hdue.1, hdue.2, rfl⟩ (h.not_fatal (by rw [isClosed, hphase])) nofun

theorem Serves.read (h : c.Serves s ended done) (bytes : List UInt8) :
    ∃ ended', (c.read bytes).Serves s ended' done ∧ (ended' = true → ended = true ∨ bytes = []) := by
  unfold Connection.read
  split
  · exact ⟨ended, h, Or.inl⟩
  · next hwaits =>
    obtain ⟨hphase, hqueue⟩ := isWaiting_iff.1 (by simpa using hwaits)
    have hfatal := h.not_fatal (by rw [isClosed, hphase])
    obtain ⟨rfl, hdone, hframer⟩ :
        ended = false ∧ done = (c.cut s).1 ∧ c.framer = (c.cut s).2 := by
      have hdue := h.due
      rw [Due, hphase, hqueue, List.append_nil] at hdue
      obtain ⟨rfl, hdone⟩ := hdue
      exact ⟨rfl, hdone⟩
    split
    · next hend =>
      refine ⟨true, Serves.closeIfDone (.of_not_fatal h.written ⟨rfl, ?_⟩ hfatal nofun),
        fun _ => Or.inr hend⟩
      rw [hdone, hframer]
      exact c.cut_append_finish s
    · refine ⟨false, .of_not_fatal h.written ?_ hfatal (hphase ▸ nofun), nofun⟩
      rw [Due, hphase]
      dsimp only
      rw [told, cut, Framer.pushAll_append, hdone, hframer]
      simp [cut, Framer.pushAll]

/-- An answered frame moves from the queue to what is done. -/
theorem Serves.answer {frame : Frame} {queue : List Frame} (h : c.Serves s ended done)
    (hqueue : c.queue = frame :: queue) :
    (c.respond s true).Serves s ended (done ++ [frame]) := by
  have hopen := h.open_of_queue hqueue
  have hwritten : c.written ++ [s.line frame] = (done ++ [frame]).map s.line := by
    rw [h.written, List.map_append, List.map_singleton]
  have hrest : done ++ [frame] ++ queue = done ++ c.queue := by
    rw [hqueue, List.append_assoc, List.singleton_append]
  rw [respond, hqueue]
  simp only [Bool.not_true]
  rw [if_neg Bool.false_ne_true]
  by_cases hfatal : s.isFatal frame = true
  · rw [if_pos hfatal]
    refine ⟨hwritten, ⟨?_, rfl⟩, ?_, iff_of_true ⟨frame, List.mem_concat_self, hfatal⟩ rfl⟩
    · exact (List.prefix_append _ queue).trans (hrest ▸ h.queued_prefix)
    · rw [List.dropLast_concat]
      exact h.not_fatal hopen
  · rw [if_neg hfatal]
    refine Serves.closeIfDone (.of_not_fatal hwritten ?_ ?_ ?_)
    · have hdue := h.due
      unfold Due at hdue ⊢
      dsimp only
      cases hphase : c.phase with
      | reading =>
        rw [hphase] at hdue
        exact ⟨hdue.1, hrest.trans hdue.2.1, hdue.2.2⟩
      | flushing =>
        rw [hphase] at hdue
        exact ⟨hdue.1, hrest.trans hdue.2⟩
      | closed why =>
        rw [isClosed, hphase] at hopen
        cases hopen
    · intro earlier hearlier
      rcases List.mem_append.1 hearlier with hmem | hmem
      · exact h.not_fatal hopen earlier hmem
      · exact List.mem_singleton.1 hmem ▸ Bool.eq_false_iff.2 hfatal
    · intro hclosed
      rw [isClosed, hclosed] at hopen
      cases hopen

theorem Serves.respond (h : c.Serves s ended done) (delivered : Bool) :
    ∃ done', (c.respond s delivered).Serves s ended done' := by
  cases hqueue : c.queue with
  | nil =>
    refine ⟨done, ?_⟩
    rw [Connection.respond, hqueue]
    exact h
  | cons frame queue =>
    cases delivered with
    | true => exact ⟨done ++ [frame], h.answer hqueue⟩
    | false =>
      refine ⟨done, ?_⟩
      rw [Connection.respond, hqueue]
      exact h.close (h.open_of_queue hqueue) (Or.inl rfl)

/-! ## Reads -/

theorem reads_closeIfDone (c : Connection) : c.closeIfDone.reads = c.reads := by
  rcases closeIfDone_eq c with heq | ⟨-, -, heq⟩
  · rw [heq]
  · rw [heq]
    rfl

theorem reads_read (c : Connection) (bytes : List UInt8) :
    (c.read bytes).reads = if c.isWaiting && bytes ≠ [] then c.reads ++ [bytes] else c.reads := by
  unfold Connection.read
  cases c.isWaiting with
  | false => rfl
  | true =>
    by_cases hend : bytes = []
    · simp [hend, reads_closeIfDone]
    · simp [hend]

end Connection

namespace Server

variable {s : Service} {server : Server} {i : Nat} {e : Event} {events : List Event}
  {c c' : Connection}

/-- Every move keeps the invariant, and only an empty read ends the stream. -/
theorem serves_move (hm : Move s server i e c c') {ended : Bool} {done : List Frame}
    (h : c.Serves s ended done) :
    ∃ ended' done', c'.Serves s ended' done' ∧
      (ended' = true → ended = true ∨ e = .read i []) := by
  have hwaits (hwaiting : c.isWaiting = true) : c.isClosed = false := by
    rw [Connection.isClosed, (Connection.isWaiting_iff.1 hwaiting).1]
  cases hm with
  | idle => exact ⟨ended, done, h, Or.inl⟩
  | read bytes =>
    obtain ⟨ended', hserves, hended'⟩ := h.read bytes
    exact ⟨ended', done, hserves, fun he => (hended' he).imp_right (congrArg _)⟩
  | respond delivered =>
    obtain ⟨done', hserves⟩ := h.respond delivered
    exact ⟨ended, done', hserves, Or.inl⟩
  | lose hwaiting => exact ⟨ended, done, h.close (hwaits hwaiting) (Or.inl rfl), Or.inl⟩
  | notice hwaiting => exact ⟨ended, done, h.close (hwaits hwaiting) (Or.inr rfl), Or.inl⟩
  | finish reason hphase hopen => exact ⟨ended, done, h.close hopen (Or.inr rfl), Or.inl⟩

/-! ## After closing -/

theorem move_closed (hm : Move s server i e c c') (hclosed : c.isClosed = true)
    (hqueue : c.queue = []) : c' = c := by
  obtain ⟨why, hphase⟩ := Connection.isClosed_iff.1 hclosed
  have hwaits : c.isWaiting = false := by
    rw [Connection.isWaiting, hphase]
    rfl
  cases hm with
  | idle => rfl
  | read bytes =>
    rw [Connection.read, hwaits]
    rfl
  | respond delivered => rw [Connection.respond, hqueue]
  | lose hwaiting | notice hwaiting =>
    rw [hwaits] at hwaiting
    cases hwaiting
  | finish reason hphase hopen =>
    rw [hclosed] at hopen
    cases hopen

/-- A connection that is closed stays as it is. -/
theorem getElem?_run_of_closed (hc : server.connections[i]? = some c) (hclosed : c.isClosed = true)
    (hqueue : c.queue = []) (events : List Event) :
    (server.run s events).connections[i]? = some c := by
  refine run_keeps s (P := fun server => server.connections[i]? = some c) ?_ hc events
  intro server e hc
  obtain ⟨c', hc', hm⟩ := exists_move s hc e
  rwa [move_closed hm hclosed hqueue] at hc'

/-! ## What a connection reads -/

/-- The bytes that an event brings to connection `i`, if it waits for them. -/
def taken? (server : Server) (i : Nat) : Event → Option (List UInt8)
  | .read j bytes =>
    if server.isRunning && j == i && (server.connections[i]?).any (·.isWaiting) && bytes ≠ [] then
      some bytes
    else none
  | _ => none

/-- What the events of a run bring to connection `i`, read by read. -/
def taken (s : Service) (server : Server) (i : Nat) : List Event → List (List UInt8)
  | [] => []
  | e :: events => (server.taken? i e).toList ++ taken s (server.step s e) i events

theorem taken_concat (server : Server) (i : Nat) (events : List Event) (e : Event) :
    server.taken s i (events ++ [e]) =
      server.taken s i events ++ ((server.run s events).taken? i e).toList := by
  induction events generalizing server with
  | nil => exact List.append_nil _
  | cons first events ih =>
    rw [List.cons_append, taken, ih, taken, List.append_assoc]
    rfl

theorem taken?_eq_none (hread : ∀ bytes, e ≠ .read i bytes) : server.taken? i e = none := by
  cases e with
  | read j bytes =>
    have hj : (j == i) = false := by
      rw [beq_eq_false_iff_ne]
      rintro rfl
      exact hread bytes rfl
    simp [taken?, hj]
  | _ => rfl

theorem reads_move (hm : Move s server i e c c') (hread : ∀ bytes, e ≠ .read i bytes) :
    c'.reads = c.reads := by
  cases hm with
  | idle | lose | notice | finish => rfl
  | read bytes => exact absurd rfl (hread bytes)
  | respond delivered =>
    unfold Connection.respond
    split
    · rfl
    · split
      · rfl
      · dsimp only
        split
        · rfl
        · exact Connection.reads_closeIfDone _

theorem reads_step (hc : server.connections[i]? = some c)
    (hc' : (server.step s e).connections[i]? = some c') :
    c'.reads = c.reads ++ (server.taken? i e).toList := by
  by_cases hread : ∃ bytes, e = .read i bytes
  · obtain ⟨bytes, rfl⟩ := hread
    rw [taken?, hc, Option.any_some, beq_self_eq_true, Bool.and_true]
    rw [step] at hc'
    by_cases hrunning : server.isRunning = true
    · obtain rfl : c.read bytes = c' := by
        simpa [hrunning, onConnection, List.getElem?_modify, hc] using hc'
      rw [hrunning, Bool.true_and, Connection.reads_read]
      split
      · rfl
      · exact (List.append_nil _).symm
    · rw [if_neg hrunning, hc] at hc'
      cases hc'
      simp [hrunning]
  · have hother (bytes : List UInt8) : e ≠ .read i bytes := fun he => hread ⟨bytes, he⟩
    obtain ⟨c'', hc'', hm⟩ := exists_move s hc e
    rw [hc''] at hc'
    cases hc'
    rw [reads_move hm hother, taken?_eq_none hother, Option.toList_none, List.append_nil]

/-- **A connection reads what is brought to it**, and nothing else. -/
theorem reads_run (hnew : server.connections = []) (events : List Event) (i : Nat) :
    (((server.run s events).connections[i]?).map Connection.reads).getD [] =
      server.taken s i events := by
  induction events using List.reverseRecOn with
  | nil => simp [run, taken, hnew]
  | append_singleton events e ih =>
    rw [run_concat, taken_concat, ← ih]
    cases hc : (server.run s events).connections[i]? with
    | none =>
      -- Nothing is brought to a connection that is not there yet, and a new one has read nothing.
      have hnone : (server.run s events).taken? i e = none := by
        cases e <;> simp [taken?, hc]
      rw [hnone]
      cases hc' : ((server.run s events).step s e).connections[i]? with
      | none => rfl
      | some c' =>
        rcases move_of_step s hc' with ⟨c, hsome, -⟩ | ⟨-, -, -, rfl⟩
        · rw [hc] at hsome
          cases hsome
        · rfl
    | some c =>
      obtain ⟨c', hc', -⟩ := exists_move s hc e
      rw [hc']
      exact reads_step hc hc'

/-! ## Why a connection closes -/

/-- If a connection was closed early, one of the events closed it. -/
structure Explains (s : Service) (server : Server) (events : List Event) (i : Nat)
    (c : Connection) : Prop where
  lost : c.phase = .closed .lost → .respond i false ∈ events ∨ .lose i ∈ events
  shutdown : c.phase = .closed .shutdown → (server.run s events).cancellation.isCancelled = true

theorem Explains.concat (h : Explains s server events i c) (e : Event) :
    Explains s server (events ++ [e]) i c where
  lost hphase := (h.lost hphase).imp (List.mem_append_left _) (List.mem_append_left _)
  shutdown hphase := by
    obtain ⟨reason, hreason⟩ := isCancelled_iff.1 (h.shutdown hphase)
    rw [run_append]
    exact isCancelled_iff.2 ⟨reason, reason_run_of_some s hreason [e]⟩

theorem Explains.closeIfDone (h : Explains s server events i c) :
    Explains s server events i c.closeIfDone := by
  rcases Connection.closeIfDone_eq c with heq | ⟨-, -, heq⟩
  · rw [heq]
    exact h
  · rw [heq]
    exact ⟨nofun, nofun⟩

theorem explains_move (hstops : (server.run s events).StopsAsAsked)
    (hm : Move s (server.run s events) i e c c') (h : Explains s server events i c) :
    Explains s server (events ++ [e]) i c' := by
  have hlast : e ∈ events ++ [e] := List.mem_concat_self
  have hc := h.concat e
  cases hm with
  | idle => exact hc
  | read bytes =>
    unfold Connection.read
    split
    · exact hc
    · split
      · exact Explains.closeIfDone ⟨nofun, nofun⟩
      · exact ⟨hc.lost, hc.shutdown⟩
  | respond delivered =>
    unfold Connection.respond
    split
    · exact hc
    · split
      · next hfailed =>
        have hdelivered : delivered = false := by simpa using hfailed
        exact ⟨fun _ => Or.inl (hdelivered ▸ hlast), nofun⟩
      · dsimp only
        split
        · exact ⟨nofun, nofun⟩
        · exact Explains.closeIfDone ⟨hc.lost, hc.shutdown⟩
  | lose => exact ⟨fun _ => Or.inr hlast, nofun⟩
  | notice hwaiting hcancelled =>
    refine ⟨nofun, fun _ => ?_⟩
    obtain ⟨reason, hreason⟩ := isCancelled_iff.1 hcancelled
    rw [run_append]
    exact isCancelled_iff.2 ⟨reason, reason_run_of_some s hreason _⟩
  | finish reason hphase =>
    refine ⟨nofun, fun _ => ?_⟩
    rw [run_append]
    exact isCancelled_iff.2 ⟨reason, reason_run_of_some s (hstops reason (Or.inl hphase)) _⟩

/-- The two invariants of a connection along a run. -/
theorem serves_and_explains (hnew : server.connections = []) (hstops : server.StopsAsAsked)
    (hc : (server.run s events).connections[i]? = some c) :
    (∃ ended done, c.Serves s ended done ∧ (ended = true → .read i [] ∈ events)) ∧
      Explains s server events i c := by
  refine run_connections s hnew (P := fun events i c =>
    (∃ ended done, c.Serves s ended done ∧ (ended = true → .read i [] ∈ events)) ∧
      Explains s server events i c) ?_ ?_ events i c hc
  · intro events i
    exact ⟨⟨false, [], Connection.serves_fresh s, nofun⟩, nofun, nofun⟩
  · rintro events e i c c' hm ⟨⟨ended, done, hserves, hended⟩, hexplains⟩
    refine ⟨?_, explains_move (stopsAsAsked_run s hstops events) hm hexplains⟩
    obtain ⟨ended', done', hserves', hended'⟩ := serves_move hm hserves
    refine ⟨ended', done', hserves', fun htrue => ?_⟩
    rcases hended' htrue with hbefore | hread
    · exact List.mem_append_left _ (hended hbefore)
    · exact hread ▸ List.mem_concat_self

/-! ## The law -/

/-- **Every connection answers its own frames in order.** At any moment of any run, what is written
    on a connection are the response lines of the first frames of what the events brought to it; the
    frame of an unfinished line counts only when the stream has ended. Behind a fatal answer nothing
    is written any more. A connection that has closed, with no failed read or write, no fatal answer
    and no request to stop, has reached the end of its stream and has answered every frame. -/
theorem connections_answer_in_order {path : SocketPath} {identity : Nat} {watching : Bool}
    {cancellation : Cancellation}
    (hc : ((started path identity watching cancellation).run s events).connections[i]? = some c) :
    let server := (started path identity watching cancellation).run s events
    let reads := (started path identity watching cancellation).taken s i events
    let frames := Frame.ofReads s.settings.framing s.maxBytes reads
    ∃ answered, answered <+: frames ∧
      c.written = answered.map s.line ∧
      c.output = (answered.map fun frame => encodeText (s.line frame).toList).flatten ∧
      (.read i [] ∉ events → ∀ later,
        answered <+: Frame.ofReads s.settings.framing s.maxBytes (reads ++ later)) ∧
      (∀ frame ∈ answered.dropLast, s.isFatal frame = false) ∧
      ((∃ frame ∈ answered, s.isFatal frame = true) →
        ∀ more, (server.run s more).connections[i]? = some c) ∧
      (c.phase = .flushing → answered ++ c.queue = frames) ∧
      (c.phase = .closed .finished → answered = frames) ∧
      (c.isClosed = true → .respond i false ∉ events → .lose i ∉ events →
        (∀ frame ∈ answered, s.isFatal frame = false) →
        server.cancellation.isCancelled = false → .read i [] ∈ events ∧ answered = frames) := by
  have hnew := connections_started path identity watching cancellation
  obtain ⟨⟨ended, done, hserves, hended⟩, hexplains⟩ := serves_and_explains hnew
    (stopsAsAsked_started path identity watching cancellation) hc
  have hreads := reads_run (s := s) hnew events i
  rw [hc, Option.map_some, Option.getD_some] at hreads
  intro server reads frames
  have hframes : c.frames s = frames := congrArg (Frame.ofReads _ _) hreads
  refine ⟨done, ?_, hserves.written, ?_, ?_, hserves.fatal_last, ?_, ?_, ?_, ?_⟩
  · exact hframes ▸ hserves.prefix_told.trans (c.told_prefix_frames s ended)
  · rw [Connection.output, Connection.outputAfter, List.drop_zero, hserves.written]
    rw [List.flatMap_map, List.flatMap_def]
  · intro hopen later
    obtain rfl : ended = false := by
      cases ended with
      | false => rfl
      | true => exact absurd (hended rfl) hopen
    have hcut : reads = c.reads := hreads.symm
    rw [hcut]
    exact hserves.prefix_told.trans (c.cut_append s later)
  · intro hfatal more
    have hclosed : c.isClosed = true :=
      Connection.isClosed_iff.2 ⟨.fatal, hserves.closed_fatal.1 hfatal⟩
    exact getElem?_run_of_closed hc hclosed (hserves.queue_of_closed hclosed) more
  · intro hflushing
    exact (hserves.flushing hflushing).trans hframes
  · intro hfinished
    exact (hserves.finished hfinished).2.trans hframes
  · intro hclosed hrespond hlose hfatal hrequest
    obtain ⟨why, hphase⟩ := Connection.isClosed_iff.1 hclosed
    cases why with
    | finished =>
      obtain ⟨hend, hdone⟩ := hserves.finished hphase
      exact ⟨hended hend, hdone.trans hframes⟩
    | lost => exact ((hexplains.lost hphase).elim hrespond hlose).elim
    | fatal =>
      obtain ⟨frame, hframe, hf⟩ := hserves.closed_fatal.2 hphase
      rw [hfatal frame hframe] at hf
      cases hf
    | shutdown =>
      have hcancelled := hexplains.shutdown hphase
      rw [hrequest] at hcancelled
      cases hcancelled

/-! ## Requests over the limit -/

/-- The line that is written for a request over the limit: a failure with the code `ETOOLARGE`, which
    names the limit. -/
theorem toList_line_tooLarge (s : Service) :
    (s.line .tooLarge).toList =
      (match s.settings.envelope with
        | .result => "\x7b\"Err\":\"ETOOLARGE: request exceeds ".toList
        | .legacy => "\x7b\"Invalid\":\"ETOOLARGE: request exceeds ".toList) ++
      writeWord s.settings.maxRequestBytes ++ " bytes\"\x7d\n".toList :=
  Outcome.toList_line_tooLarge s.settings.maxRequestBytes s.settings.envelope

example : Service.line { caps := .npm, settings := { maxRequestBytes := 4096 } } .tooLarge =
    "\x7b\"Err\":\"ETOOLARGE: request exceeds 4096 bytes\"\x7d\n" := by decide +kernel

/-! ## Two clients at once -/

/-- A service that takes every text for a tag. -/
def taggingService : Service where
  caps :=
    { resolve := fun _ spec => .ok { kind := "tag", raw := spec, fetch := some spec },
      parseRange := fun _ => .ok [] }

/-- Two clients that are read and answered in turn. The first one sends `a` and the beginning of
    `bc`, then the rest without a line feed, and ends its stream. -/
def twoClients : List Event :=
  [.accept, .accept, .read 0 (encodeText "a\nb".toList), .read 1 (encodeText "x\n".toList),
    .respond 0 true, .read 0 (encodeText "c".toList), .respond 1 true, .read 0 [],
    .respond 0 true]

/-- What the connection of the first client is in the end. -/
def firstClient : Connection :=
  { framer := .fresh .newline 65536, phase := .closed .finished,
    reads := [encodeText "a\nb".toList, encodeText "c".toList],
    written := [.request "a", .request "bc"].map taggingService.line }

theorem taggingService_isFatal (frame : Frame) : taggingService.isFatal frame = false := by
  cases frame <;> rfl

/-- The first client has both of its answers, and none of the other's. -/
theorem first_client_is_answered :
    ((started .vacant 1 false {}).run taggingService twoClients).connections[0]? =
        some firstClient ∧
      .read 0 [] ∈ twoClients ∧ firstClient.written.length = 2 := by
  have hc : ((started .vacant 1 false {}).run taggingService twoClients).connections[0]? =
      some firstClient := by decide +kernel
  obtain ⟨answered, -, hwritten, -, -, -, -, -, -, hall⟩ := connections_answer_in_order hc
  obtain ⟨hended, rfl⟩ := hall rfl (by decide) (by decide)
    (fun frame _ => taggingService_isFatal frame) (by decide +kernel)
  refine ⟨hc, hended, ?_⟩
  rw [hwritten, List.length_map]
  decide +kernel

end Server

end DepSpec
