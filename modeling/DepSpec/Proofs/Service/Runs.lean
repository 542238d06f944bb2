import DepSpec.Service.Lifecycle
import Mathlib.Data.List.Induction

set_option autoImplicit false

/-! # What an event can do

Every law about servers rests on three statements about one step: what it can do to one connection
(`Server.move_of_step`), to the request to stop (`Server.reason_step`) and to the phase
(`Server.phase_step`). Each says all that can happen, with the conditions, so that a law needs no
look at `Server.step`. Laws about runs follow by induction over the events, from a server that has
just been started (`Server.started`). -/

namespace DepSpec

namespace Connection

theorem closeIfDone_eq (c : Connection) :
    c.closeIfDone = c ∨
      (c.phase = .flushing ∧ c.queue = [] ∧ c.closeIfDone = c.close .finished) := by
  unfold closeIfDone
  split
  · next h => exact Or.inr ⟨h.1, h.2, rfl⟩
  · exact Or.inl rfl

theorem isClosed_iff {c : Connection} : c.isClosed = true ↔ ∃ why, c.phase = .closed why := by
  unfold isClosed
  cases c.phase <;> simp

theorem isWaiting_iff {c : Connection} : c.isWaiting = true ↔ c.phase = .reading ∧ c.queue = [] := by
  simp [isWaiting]

end Connection

namespace Server

/-! ## Runs -/

/-- A server that has tried to bind its socket and done nothing else. The request to stop is
    shared, and may have been used before. -/
def started (path : SocketPath) (identity : Nat) (watching : Bool) (cancellation : Cancellation) :
    Server :=
  (start { path := path, watching := watching, cancellation := cancellation } identity).2

/-- The states that a server can get into, whatever happens to it and in whatever order. -/
def Reachable (s : Service) (server : Server) : Prop :=
  ∃ path identity watching cancellation events,
    server = (started path identity watching cancellation).run s events

theorem connections_started (path : SocketPath) (identity : Nat) (watching : Bool)
    (cancellation : Cancellation) :
    (started path identity watching cancellation).connections = [] := by
  unfold started start
  split <;> rfl

theorem phase_started (path : SocketPath) (identity : Nat) (watching : Bool)
    (cancellation : Cancellation) :
    (started path identity watching cancellation).phase = .starting ∨
      (started path identity watching cancellation).phase = .listening := by
  unfold started start
  split
  · exact Or.inl rfl
  · exact Or.inr rfl

/-- On a free path the server listens, and holds what it finds there: its own socket. -/
theorem started_of_isFree {path : SocketPath} (h : path.isFree = true) (identity : Nat)
    (watching : Bool) (cancellation : Cancellation) :
    started path identity watching cancellation =
      { phase := .listening, path := .holds (.socket identity .reached), socket := some identity,
        watching := watching, cancellation := cancellation } := by
  rw [started, start, SocketPath.occupy_of_isFree h]
  rfl

/-- On any other path nothing happens. -/
theorem started_of_not_isFree {path : SocketPath} (h : path.isFree = false) (identity : Nat)
    (watching : Bool) (cancellation : Cancellation) :
    started path identity watching cancellation =
      { path := path, watching := watching, cancellation := cancellation } := by
  obtain ⟨e, he⟩ := SocketPath.occupy_of_not_isFree h identity
  rw [started, start, he]

variable (s : Service)

theorem run_append (server : Server) (events more : List Event) :
    server.run s (events ++ more) = (server.run s events).run s more :=
  List.foldl_append ..

theorem run_concat (server : Server) (events : List Event) (e : Event) :
    server.run s (events ++ [e]) = (server.run s events).step s e :=
  run_append s server events [e]

theorem run_cons (server : Server) (e : Event) (events : List Event) :
    server.run s (e :: events) = (server.step s e).run s events := rfl

theorem Reachable.step {s : Service} {server : Server} (h : server.Reachable s) (e : Event) :
    (server.step s e).Reachable s := by
  obtain ⟨path, identity, watching, cancellation, events, rfl⟩ := h
  exact ⟨path, identity, watching, cancellation, events ++ [e], (run_concat ..).symm⟩

/-- What every event keeps, every run keeps. -/
theorem run_keeps {P : Server → Prop} (hstep : ∀ server e, P server → P (server.step s e))
    {server : Server} (h : P server) (events : List Event) : P (server.run s events) := by
  induction events generalizing server with
  | nil => exact h
  | cons e events ih => exact ih (hstep server e h)

/-! ## One connection -/

/-- What an event of a server can do to connection `i`. -/
inductive Move (server : Server) (i : Nat) : Event → Connection → Connection → Prop
  | idle (e : Event) (c : Connection) : Move server i e c c
  | read (bytes : List UInt8) (c : Connection) : Move server i (.read i bytes) c (c.read bytes)
  | respond (delivered : Bool) (c : Connection) :
    Move server i (.respond i delivered) c (c.respond s delivered)
  | lose {c : Connection} (hwaiting : c.isWaiting = true) :
    Move server i (.lose i) c (c.close .lost)
  | notice {c : Connection} (hwaiting : c.isWaiting = true)
    (hcancelled : server.cancellation.isCancelled = true) :
    Move server i (.notice i) c (c.close .shutdown)
  | finish {c : Connection} (reason : StopReason) (hphase : server.phase = .shuttingDown reason)
    (hopen : c.isClosed = false) : Move server i .finish c (c.close .shutdown)

/-- Changing one connection moves every connection as it moves that one. -/
theorem move_onConnection {server : Server} {e : Event} {i j : Nat} {f : Connection → Connection}
    {c' : Connection} (h : (server.onConnection j f).connections[i]? = some c')
    (hf : ∀ c, Move s server j e c (f c)) :
    ∃ c, server.connections[i]? = some c ∧ Move s server i e c c' := by
  rw [onConnection, List.getElem?_modify] at h
  obtain ⟨c, hc, rfl⟩ := Option.map_eq_some_iff.1 h
  refine ⟨c, hc, ?_⟩
  by_cases hj : j = i
  · rw [if_pos hj, ← hj]
    exact hf c
  · rw [if_neg hj]
    exact .idle e c

/-- The same for a change that is made under a condition. -/
theorem move_ite {server : Server} {e : Event} {i j : Nat} {f : Connection → Connection}
    {c' : Connection} {b : Bool}
    (h : (if b = true then server.onConnection j f else server).connections[i]? = some c')
    (hf : b = true → ∀ c, Move s server j e c (f c)) :
    ∃ c, server.connections[i]? = some c ∧ Move s server i e c c' := by
  split at h
  · next hb => exact move_onConnection s h (hf hb)
  · exact ⟨c', h, .idle e c'⟩

/-- A fatal answer touches the connections no more than any other. -/
theorem connections_respond (server : Server) (j : Nat) (delivered : Bool) :
    (respond s server j delivered).connections =
      (server.onConnection j (·.respond s delivered)).connections := by
  unfold respond
  cases hj : server.connections[j]? with
  | none =>
    dsimp only
    rw [onConnection, List.modify_eq_self (List.getElem?_eq_none_iff.1 hj)]
  | some c =>
    dsimp only
    split <;> rfl

/-- Answering touches the connection and the request to stop, and nothing else. -/
theorem respond_frame (server : Server) (i : Nat) (delivered : Bool) :
    (respond s server i delivered).phase = server.phase ∧
      (respond s server i delivered).path = server.path ∧
      (respond s server i delivered).socket = server.socket := by
  unfold respond
  cases server.connections[i]? with
  | none => exact ⟨rfl, rfl, rfl⟩
  | some c =>
    dsimp only
    split <;> exact ⟨rfl, rfl, rfl⟩

/-- **What a step can do to one connection**: move it, or accept it. -/
theorem move_of_step {server : Server} {e : Event} {i : Nat} {c' : Connection}
    (h : (server.step s e).connections[i]? = some c') :
    (∃ c, server.connections[i]? = some c ∧ Move s server i e c c') ∨
      (server.connections[i]? = none ∧ e = .accept ∧ server.phase = .listening ∧
        c' = .fresh s) := by
  have hidle (hsame : (server.step s e).connections = server.connections) :
      ∃ c, server.connections[i]? = some c ∧ Move s server i e c c' :=
    ⟨c', hsame ▸ h, .idle e c'⟩
  cases e with
  | accept =>
    rw [step] at h
    split at h
    · next hphase =>
      rw [List.getElem?_append] at h
      split at h
      · exact Or.inl ⟨c', h, .idle _ _⟩
      · next hlen =>
        -- The connection that was accepted is the last one.
        refine Or.inr ⟨List.getElem?_eq_none_iff.2 (Nat.le_of_not_lt hlen), rfl, hphase, ?_⟩
        exact List.mem_singleton.1 (List.mem_of_getElem? h)
    · exact Or.inl ⟨c', h, .idle _ _⟩
  | read j bytes => exact Or.inl (move_ite s h fun _ c => .read bytes c)
  | respond j delivered =>
    rw [step] at h
    split at h
    · rw [connections_respond] at h
      exact Or.inl (move_onConnection s h fun c => .respond delivered c)
    · exact Or.inl ⟨c', h, .idle _ _⟩
  | lose j =>
    refine Or.inl (move_ite s h fun _ c => ?_)
    split
    · next hwaiting => exact .lose hwaiting
    · exact .idle _ _
  | notice j =>
    refine Or.inl (move_ite s h fun hnotice c => ?_)
    split
    · next hwaiting => exact .notice hwaiting (Bool.and_eq_true_iff.1 hnotice).2
    · exact .idle _ _
  | use handle op => exact Or.inl (hidle rfl)
  | peerCheck alive =>
    refine Or.inl (hidle ?_)
    rw [step]
    split <;> rfl
  | pathChanged path => exact Or.inl (hidle rfl)
  | stop =>
    refine Or.inl (hidle ?_)
    rw [step, stop]
    split <;> rfl
  | finish =>
    rw [step, finish] at h
    split at h
    · next reason hphase =>
      rw [List.getElem?_map] at h
      obtain ⟨c, hc, rfl⟩ := Option.map_eq_some_iff.1 h
      refine Or.inl ⟨c, hc, ?_⟩
      split
      · exact .idle _ _
      · next hopen => exact .finish reason hphase (Bool.eq_false_iff.2 hopen)
    · exact Or.inl ⟨c', h, .idle _ _⟩

/-- Connections are kept when they are closed. -/
theorem length_connections_step (server : Server) (e : Event) :
    server.connections.length ≤ (server.step s e).connections.length := by
  cases e with
  | accept =>
    rw [step]
    split
    · rw [List.length_append]
      exact Nat.le_add_right ..
    · exact Nat.le_refl _
  | read | lose | notice =>
    rw [step]
    split
    · exact Nat.le_of_eq (List.length_modify ..).symm
    · exact Nat.le_refl _
  | respond i delivered =>
    rw [step]
    split
    · rw [connections_respond]
      exact Nat.le_of_eq (List.length_modify ..).symm
    · exact Nat.le_refl _
  | peerCheck =>
    rw [step]
    split <;> exact Nat.le_refl _
  | stop =>
    rw [step, stop]
    split <;> exact Nat.le_refl _
  | finish =>
    rw [step, finish]
    split
    · exact Nat.le_of_eq (List.length_map ..).symm
    · exact Nat.le_refl _
  | use | pathChanged => exact Nat.le_refl _

/-- A connection is moved by every step. -/
theorem exists_move {server : Server} {i : Nat} {c : Connection}
    (hc : server.connections[i]? = some c) (e : Event) :
    ∃ c', (server.step s e).connections[i]? = some c' ∧ Move s server i e c c' := by
  obtain ⟨hi, -⟩ := List.getElem?_eq_some_iff.1 hc
  have hi' := Nat.lt_of_lt_of_le hi (length_connections_step s server e)
  refine ⟨_, List.getElem?_eq_getElem hi', ?_⟩
  rcases move_of_step s (List.getElem?_eq_getElem hi') with ⟨c₀, hc₀, hm⟩ | ⟨hnone, -⟩
  · rw [hc] at hc₀
    cases hc₀
    exact hm
  · rw [hc] at hnone
    cases hnone

/-- A law of every connection of a run, from what accepting and each move do to it. The events so
    far may be part of the law. -/
theorem run_connections {server : Server} (hnew : server.connections = [])
    {P : List Event → Nat → Connection → Prop}
    (hfresh : ∀ events i, P events i (.fresh s))
    (hmove : ∀ events e i c c', Move s (server.run s events) i e c c' → P events i c →
      P (events ++ [e]) i c')
    (events : List Event) (i : Nat) (c : Connection)
    (hc : (server.run s events).connections[i]? = some c) : P events i c := by
  induction events using List.reverseRecOn generalizing c with
  | nil => simp [run, hnew] at hc
  | append_singleton events e ih =>
    rw [run_concat] at hc
    rcases move_of_step s hc with ⟨c₀, hc₀, hm⟩ | ⟨-, -, -, rfl⟩
    · exact hmove events e i c₀ c hm (ih c₀ hc₀)
    · exact hfresh _ i

/-! ## The request to stop -/

/-- The reason for which an event requests the stop, if it does. -/
def request? (server : Server) : Event → Option StopReason
  | .respond i delivered =>
    if server.isRunning && delivered && (server.connections[i]?).any (·.isFatalNext s)
    then some .fatal else none
  | .use handle (.cancel reason) =>
    if handle < server.cancellation.handles then some reason else none
  | .peerCheck alive =>
    if server.isRunning && server.watching && !alive then some .peerExited else none
  | _ => none

theorem reason_cancel (server : Server) (reason : StopReason) :
    (server.cancel reason).cancellation.reason =
      server.cancellation.reason.or (some reason) := by
  rw [cancel, Cancellation.reason_cancel]
  cases server.cancellation.reason <;> rfl

/-- **What a step does to the request to stop**: the first reason stays. -/
theorem reason_step (server : Server) (e : Event) :
    (server.step s e).cancellation.reason =
      server.cancellation.reason.or (server.request? s e) := by
  cases e with
  | respond i delivered =>
    rw [step, request?]
    by_cases hrunning : server.isRunning = true
    · rw [if_pos hrunning, respond, hrunning]
      cases hi : server.connections[i]? with
      | none => simp
      | some c =>
        simp only [Bool.true_and, Option.any_some]
        split
        · exact reason_cancel ..
        · exact (Option.or_none).symm
    · simp [hrunning]
  | use handle op =>
    simp only [step, Cancellation.apply]
    cases op with
    | cancel reason =>
      simp only [request?]
      split
      · rw [Cancellation.reason_cancel]
        cases server.cancellation.reason <;> rfl
      · exact (Option.or_none).symm
    | _ =>
      simp only [request?, Option.or_none]
      split <;> rfl
  | peerCheck alive =>
    rw [step, request?]
    split
    · exact reason_cancel ..
    · exact (Option.or_none).symm
  | accept | read | lose | notice =>
    simp only [step, request?, Option.or_none]
    split <;> rfl
  | pathChanged => exact (Option.or_none).symm
  | stop =>
    simp only [step, stop, request?, Option.or_none]
    split <;> rfl
  | finish =>
    simp only [step, finish, request?, Option.or_none]
    split <;> rfl

theorem reason_run_of_some {server : Server} {reason : StopReason}
    (h : server.cancellation.reason = some reason) (events : List Event) :
    (server.run s events).cancellation.reason = some reason :=
  run_keeps s (P := fun server => server.cancellation.reason = some reason)
    (fun server e h => by rw [reason_step, h, Option.some_or]) h events

theorem isCancelled_iff {server : Server} :
    server.cancellation.isCancelled = true ↔ ∃ reason, server.cancellation.reason = some reason :=
  Option.isSome_iff_exists

/-! ## The phase -/

/-- **What a step does to the phase**: a request to stop is carried out in two steps. -/
theorem phase_step (server : Server) (e : Event) :
    (server.step s e).phase = server.phase ∨
      (∃ reason, e = .stop ∧ server.phase = .listening ∧
        server.cancellation.reason = some reason ∧
        (server.step s e).phase = .shuttingDown reason) ∨
      (∃ reason, e = .finish ∧ server.phase = .shuttingDown reason ∧
        (server.step s e).phase = .stopped reason) := by
  cases e with
  | stop =>
    rw [step, stop]
    split
    · next reason hphase hreason => exact Or.inr (Or.inl ⟨reason, rfl, hphase, hreason, rfl⟩)
    · exact Or.inl rfl
  | finish =>
    rw [step, finish]
    split
    · next reason hphase => exact Or.inr (Or.inr ⟨reason, rfl, hphase, rfl⟩)
    · exact Or.inl rfl
  | respond i delivered =>
    left
    rw [step]
    split
    · exact (respond_frame s server i delivered).1
    · rfl
  | accept | read | lose | notice | peerCheck =>
    left
    rw [step]
    split <;> rfl
  | use | pathChanged => exact Or.inl rfl

/-- A server that stops, or has stopped, does so for the reason that was requested. -/
def StopsAsAsked (server : Server) : Prop :=
  ∀ reason, server.phase = .shuttingDown reason ∨ server.phase = .stopped reason →
    server.cancellation.reason = some reason

theorem stopsAsAsked_started (path : SocketPath) (identity : Nat) (watching : Bool)
    (cancellation : Cancellation) :
    (started path identity watching cancellation).StopsAsAsked := by
  intro reason h
  rcases phase_started path identity watching cancellation with hp | hp <;> simp [hp] at h

theorem stopsAsAsked_step {server : Server} (h : server.StopsAsAsked) (e : Event) :
    (server.step s e).StopsAsAsked := by
  intro reason hstops
  have hstays (hreason : server.cancellation.reason = some reason) :
      (server.step s e).cancellation.reason = some reason := by
    rw [reason_step, hreason, Option.some_or]
  rcases phase_step s server e with hp | ⟨r, -, -, hr, hp⟩ | ⟨r, -, hdown, hp⟩
  · exact hstays (h reason (hp ▸ hstops))
  · obtain rfl : r = reason := by simpa [hp] using hstops
    exact hstays hr
  · obtain rfl : r = reason := by simpa [hp] using hstops
    exact hstays (h r (Or.inl hdown))

theorem stopsAsAsked_run {server : Server} (h : server.StopsAsAsked) (events : List Event) :
    (server.run s events).StopsAsAsked :=
  run_keeps s (P := StopsAsAsked) (fun _ e h => stopsAsAsked_step s h e) h events

theorem Reachable.stopsAsAsked {s : Service} {server : Server} (h : server.Reachable s) :
    server.StopsAsAsked := by
  obtain ⟨path, identity, watching, cancellation, events, rfl⟩ := h
  exact stopsAsAsked_run s (stopsAsAsked_started path identity watching cancellation) events

/-! ## Stopping -/

/-- How far a phase is on the way to the end. -/
def progress : ServerPhase → Nat
  | .starting => 0
  | .listening => 1
  | .shuttingDown _ => 2
  | .stopped _ => 3

theorem progress_run (server : Server) (events : List Event) :
    progress server.phase ≤ progress (server.run s events).phase := by
  refine run_keeps s (P := fun later => progress server.phase ≤ progress later.phase) ?_
    (Nat.le_refl _) events
  intro later e h
  rcases phase_step s later e with hp | ⟨_, -, hlisten, -, hp⟩ | ⟨_, -, hdown, hp⟩
  · rw [hp]
    exact h
  · rw [hp]
    rw [hlisten] at h
    exact Nat.le_succ_of_le h
  · rw [hp]
    rw [hdown] at h
    exact Nat.le_succ_of_le h

theorem progress_stop {server : Server} (hbound : 1 ≤ progress server.phase)
    {reason : StopReason} (hreason : server.cancellation.reason = some reason) :
    2 ≤ progress (server.step s .stop).phase := by
  rw [step, stop, hreason]
  cases hp : server.phase with
  | starting => simp [hp, progress] at hbound
  | listening => exact Nat.le_refl _
  | shuttingDown => simp [hp, progress]
  | stopped => simp [hp, progress]

theorem progress_finish {server : Server} (hdown : 2 ≤ progress server.phase) :
    3 ≤ progress (server.step s .finish).phase := by
  rw [step, finish]
  cases hp : server.phase with
  | starting => simp [hp, progress] at hdown
  | listening => simp [hp, progress] at hdown
  | shuttingDown => exact Nat.le_refl _
  | stopped => simp [hp, progress]

theorem phase_of_outcome? {server : Server} {reason : StopReason}
    (h : server.outcome? = some reason) : server.phase = .stopped reason := by
  unfold outcome? at h
  split at h
  · next hphase =>
    cases h
    exact hphase
  · cases h

theorem outcome?_of_progress {server : Server} (h : server.StopsAsAsked)
    (hstopped : 3 ≤ progress server.phase) : server.outcome? = server.cancellation.reason := by
  unfold outcome?
  cases hp : server.phase with
  | stopped reason => exact (h reason (Or.inr hp)).symm
  | starting | listening | shuttingDown =>
    rw [hp] at hstopped
    simp [progress] at hstopped

/-- **A server that was asked to stop stops for that reason**, whatever else happens before it
    sees the request, and before it has closed its connections. -/
theorem outcome?_run_of_progress {server : Server} (h : server.StopsAsAsked)
    (hbound : 1 ≤ progress server.phase) {reason : StopReason}
    (hreason : server.cancellation.reason = some reason) (before between after : List Event) :
    (server.run s (before ++ .stop :: between ++ .finish :: after)).outcome? = some reason := by
  rw [run_append, run_append, run_cons, run_cons]
  have hstop := progress_stop s (Nat.le_trans hbound (progress_run s server before))
    (reason_run_of_some s hreason before)
  have hfinish := progress_finish s (Nat.le_trans hstop (progress_run s _ between))
  rw [outcome?_of_progress ?_ (Nat.le_trans hfinish (progress_run s _ after))]
  · rw [← run_cons, ← run_cons, ← run_append, ← run_append]
    exact reason_run_of_some s hreason _
  · rw [← run_cons, ← run_cons, ← run_append, ← run_append]
    exact stopsAsAsked_run s h _

theorem outcome?_run_of_reason {server : Server} (h : server.StopsAsAsked)
    (hrunning : server.isRunning = true) {reason : StopReason}
    (hreason : server.cancellation.reason = some reason) (before between after : List Event) :
    (server.run s (before ++ .stop :: between ++ .finish :: after)).outcome? = some reason := by
  refine outcome?_run_of_progress s h ?_ hreason before between after
  unfold isRunning at hrunning
  cases hp : server.phase <;> simp_all [progress]

end Server

end DepSpec
