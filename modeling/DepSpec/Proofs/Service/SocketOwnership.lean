import DepSpec.Proofs.Service.Runs

set_option autoImplicit false

/-! # Whose socket a server takes away

The path of a socket is open to anybody. A server acts on it twice. To bind its socket it takes away
one to which no connection can be made, and that is not always a dead one: somebody may listen whom
this client does not reach at this moment. When it stops it takes its own socket away if the path
still holds it. Whatever else is at the path has been put there by others (`Server.left`), and
stays. -/

namespace DepSpec

namespace SocketPath

/-- There is a socket that nobody listens on. -/
def IsDead (path : SocketPath) : Prop := ∃ identity, path = .holds (.socket identity .nobody)

/-- There is a socket that somebody accepts connections on. -/
def IsLive (path : SocketPath) : Prop :=
  ∃ identity listener, path = .holds (.socket identity listener) ∧ listener ≠ .nobody

/-- A live socket that turns this client down. -/
def IsUnreached (path : SocketPath) : Prop := path.IsLive ∧ ∃ e, path.connect = .error e

theorem isUnreached_iff {path : SocketPath} :
    path.IsUnreached ↔ ∃ identity barrier, path = .holds (.socket identity (.behind barrier)) := by
  constructor
  · rintro ⟨⟨identity, listener, rfl, hsomebody⟩, e, hconnect⟩
    cases listener with
    | nobody => exact absurd rfl hsomebody
    | reached => cases hconnect
    | behind barrier => exact ⟨identity, barrier, rfl⟩
  · rintro ⟨identity, barrier, rfl⟩
    exact ⟨⟨identity, .behind barrier, rfl, nofun⟩, barrier.error, rfl⟩

/-- What a server takes for its own is vacant, dead, or a live socket that turns it down. -/
theorem isFree_iff {path : SocketPath} :
    path.isFree = true ↔ (path = .vacant ∨ path.IsDead) ∨ path.IsUnreached := by
  rw [isUnreached_iff]
  cases path with
  | holds entry =>
    cases entry with
    | socket identity listener =>
      cases listener <;> simp [isFree, IsDead, connect, Except.isOk, Except.toBool]
    | file | directory => simp [isFree, IsDead]
  | vacant | noParent | parentNotDirectory => simp [isFree, IsDead]

end SocketPath

namespace Server

/-- What a path leads to once others have changed it. -/
def left (path : SocketPath) : List Event → SocketPath
  | [] => path
  | .pathChanged path :: events => left path events
  | _ :: events => left path events

theorem left_append (path : SocketPath) (events more : List Event) :
    left path (events ++ more) = left (left path events) more := by
  induction events generalizing path with
  | nil => rfl
  | cons e events ih => cases e <;> exact ih _

variable (s : Service)

/-! ## One step -/

/-- **What a step does to the path**: others change it, or the server gives up its socket. -/
theorem path_step (server : Server) (e : Event) :
    (server.step s e).path = left server.path [e] ∨
      (e = .stop ∧ server.phase = .listening ∧
        (∃ reason, server.cancellation.reason = some reason) ∧
        (server.step s e).path = (server.socket.map (server.path.release ·)).getD server.path) := by
  cases e with
  | stop =>
    rw [step, stop]
    split
    · next reason hphase hreason => exact Or.inr ⟨rfl, hphase, ⟨reason, hreason⟩, rfl⟩
    · exact Or.inl rfl
  | respond i delivered =>
    left
    rw [step]
    split
    · exact (respond_frame s server i delivered).2.1
    · rfl
  | finish =>
    left
    rw [step, finish]
    split <;> rfl
  | accept | read | lose | notice | peerCheck =>
    left
    rw [step]
    split <;> rfl
  | use | pathChanged => exact Or.inl rfl

/-- The server remembers which socket it has bound. -/
theorem socket_step (server : Server) (e : Event) : (server.step s e).socket = server.socket := by
  cases e with
  | respond i delivered =>
    rw [step]
    split
    · exact (respond_frame s server i delivered).2.2
    · rfl
  | stop =>
    rw [step, stop]
    split <;> rfl
  | finish =>
    rw [step, finish]
    split <;> rfl
  | accept | read | lose | notice | peerCheck =>
    rw [step]
    split <;> rfl
  | use | pathChanged => rfl

/-- Giving up the socket takes it away if it is still at the path, and nothing else. -/
theorem path_stop {server : Server} {identity : Nat} {reason : StopReason}
    (hphase : server.phase = .listening) (hreason : server.cancellation.reason = some reason)
    (hsocket : server.socket = some identity) :
    (server.step s .stop).path =
      if server.path.identity? = some identity then .vacant else server.path := by
  rw [step, stop, hphase, hreason, hsocket]
  dsimp only [Option.map_some, Option.getD_some]
  split
  · next h => exact SocketPath.release_of_eq h
  · next h => exact SocketPath.release_of_ne h

theorem phase_stop {server : Server} {reason : StopReason} (hphase : server.phase = .listening)
    (hreason : server.cancellation.reason = some reason) :
    (server.step s .stop).phase = .shuttingDown reason := by
  rw [step, stop, hphase, hreason]

/-- A server that listens after a step has listened before, and has left the path alone. -/
theorem path_step_of_listening {server : Server} {e : Event}
    (h : (server.step s e).phase = .listening) :
    server.phase = .listening ∧ (server.step s e).path = left server.path [e] := by
  refine ⟨?_, ?_⟩
  · rcases phase_step s server e with hp | ⟨_, -, -, -, hp⟩ | ⟨_, -, -, hp⟩
    · exact hp ▸ h
    · rw [hp] at h
      cases h
    · rw [hp] at h
      cases h
  · rcases path_step s server e with hpath | ⟨rfl, hphase, ⟨reason, hreason⟩, -⟩
    · exact hpath
    · rw [phase_stop s hphase hreason] at h
      cases h

theorem phase_step_ne_listening {server : Server} (h : server.phase ≠ .listening) (e : Event) :
    (server.step s e).phase ≠ .listening :=
  fun hstep => h (path_step_of_listening s hstep).1

/-! ## Runs -/

theorem socket_run (server : Server) (events : List Event) :
    (server.run s events).socket = server.socket :=
  run_keeps s (P := fun later => later.socket = server.socket)
    (fun later e h => (socket_step s later e).trans h) rfl events

/-- As long as a server listens it leaves the path alone. -/
theorem path_run_of_listening {server : Server} {events : List Event}
    (h : (server.run s events).phase = .listening) :
    server.phase = .listening ∧ (server.run s events).path = left server.path events := by
  induction events generalizing server with
  | nil => exact ⟨h, rfl⟩
  | cons e events ih =>
    obtain ⟨hphase, hpath⟩ := ih h
    obtain ⟨hlistening, hstep⟩ := path_step_of_listening s hphase
    refine ⟨hlistening, ?_⟩
    rw [run_cons, hpath, hstep, ← left_append]
    rfl

/-- So does a server that does not listen yet, or not any more. -/
theorem path_run_of_not_listening {server : Server} (h : server.phase ≠ .listening)
    (events : List Event) : (server.run s events).path = left server.path events := by
  induction events generalizing server with
  | nil => rfl
  | cons e events ih =>
    have hstep : (server.step s e).path = left server.path [e] := by
      rcases path_step s server e with hpath | ⟨-, hphase, -⟩
      · exact hpath
      · exact absurd hphase h
    rw [run_cons, ih (phase_step_ne_listening s h e), hstep, ← left_append]
    rfl

/-- A server that does not listen any more has given up its socket at one point of the run, when a
    stop had been requested. -/
theorem exists_stop_of_run {server : Server} (h : server.phase = .listening) {events : List Event}
    (hrun : (server.run s events).phase ≠ .listening) :
    ∃ before after reason, events = before ++ .stop :: after ∧
      (server.run s before).phase = .listening ∧
      (server.run s before).cancellation.reason = some reason := by
  induction events generalizing server with
  | nil => exact absurd h hrun
  | cons e events ih =>
    rcases phase_step s server e with hp | ⟨reason, rfl, -, hreason, -⟩ | ⟨_, -, hdown, -⟩
    · obtain ⟨before, after, reason, hevents, hbefore⟩ := ih (hp.trans h) hrun
      exact ⟨e :: before, after, reason, congrArg (e :: ·) hevents, hbefore⟩
    · exact ⟨[], events, reason, rfl, h, hreason⟩
    · rw [h] at hdown
      cases hdown

/-- A server that has not bound its socket never does so later. -/
theorem phase_run_of_starting {server : Server} (h : server.phase = .starting)
    (events : List Event) : (server.run s events).phase = .starting := by
  refine run_keeps s (P := fun later => later.phase = .starting) (fun later e h => ?_) h events
  rcases phase_step s later e with hp | ⟨_, -, hlistening, -⟩ | ⟨_, -, hdown, -⟩
  · exact hp.trans h
  · rw [h] at hlistening
    cases hlistening
  · rw [h] at hdown
    cases hdown

/-- Where a server stops listening it gives up its socket. -/
theorem path_run_of_stop {server : Server} {identity : Nat} {reason : StopReason}
    {before : List Event} (hsocket : server.socket = some identity)
    (hphase : (server.run s before).phase = .listening)
    (hreason : (server.run s before).cancellation.reason = some reason) (after : List Event) :
    (server.run s (before ++ .stop :: after)).path =
      left (if (left server.path before).identity? = some identity then .vacant
        else left server.path before) after := by
  have hdown : ((server.run s before).step s .stop).phase ≠ .listening := by
    simp [phase_stop s hphase hreason]
  have hbefore := (path_run_of_listening s hphase).2
  have hstop := path_stop s hphase hreason ((socket_run s server before).trans hsocket)
  rw [hbefore] at hstop
  rw [run_append, run_cons, path_run_of_not_listening s hdown, hstop]

/-! ## The start -/

/-- A path that is not free makes the start fail, and nothing has happened. -/
theorem start_of_not_isFree {server : Server} (h : server.path.isFree = false) (identity : Nat) :
    ∃ e, server.start identity = (.error e, server) := by
  obtain ⟨e, he⟩ := SocketPath.occupy_of_not_isFree h identity
  exact ⟨e, by rw [start, he]⟩

/-- The start succeeds exactly on a path that is free. -/
theorem start_eq_ok_iff {server : Server} {identity : Nat} :
    (server.start identity).1 = .ok () ↔ server.path.isFree = true := by
  constructor
  · intro hok
    by_contra htaken
    obtain ⟨e, he⟩ := start_of_not_isFree (Bool.eq_false_iff.2 htaken) identity
    rw [he] at hok
    cases hok
  · intro hfree
    rw [start, SocketPath.occupy_of_isFree hfree]

theorem start_fails_iff {server : Server} {identity : Nat} :
    (∃ e, server.start identity = (.error e, server)) ↔ server.path.isFree = false := by
  constructor
  · rintro ⟨e, he⟩
    refine Bool.eq_false_iff.2 fun hfree => ?_
    have hok : (server.start identity).1 = .ok () := start_eq_ok_iff.2 hfree
    rw [he] at hok
    cases hok
  · intro htaken
    exact start_of_not_isFree htaken identity

/-- **A server takes away its own socket, and one to which it cannot connect.** On a path that is
    vacant or holds a dead socket it binds its socket. On any other path the start fails and leaves
    the path as it is, except for one that holds a live socket to which no connection can be made:
    that socket is taken away, and the server binds its own there. A server whose start has failed
    never touches the path. One that listens leaves it as others do. There is one point at which it
    stops listening, where a stop has been requested; there the path becomes vacant if it still holds
    that very socket, and stays as it is otherwise, and it is as others leave it from then on. -/
theorem takes_away_own_or_unreached_socket (path : SocketPath) (identity : Nat) (watching : Bool)
    (cancellation : Cancellation) :
    let asked : Server := { path := path, watching := watching, cancellation := cancellation }
    let server := started path identity watching cancellation
    let own : SocketPath := .holds (.socket identity .reached)
    let fails := ∃ e, asked.start identity = (.error e, asked)
    let binds := (asked.start identity).1 = .ok () ∧ server.phase = .listening ∧ server.path = own
    (path = .vacant ∨ path.IsDead → binds) ∧
      (¬(path = .vacant ∨ path.IsDead) →
        (fails ↔ ¬path.IsUnreached) ∧ (binds ↔ path.IsUnreached)) ∧
      (fails → ∀ events, (server.run s events).phase = .starting ∧
        (server.run s events).path = left path events) ∧
      (binds →
        (∀ events, (server.run s events).phase = .listening →
          (server.run s events).path = left own events) ∧
        (∀ events, (server.run s events).phase ≠ .listening →
          ∃ before after reason, events = before ++ .stop :: after ∧
            (server.run s before).phase = .listening ∧
            (server.run s before).cancellation.reason = some reason) ∧
        ∀ before after reason, (server.run s before).phase = .listening →
          (server.run s before).cancellation.reason = some reason →
          (server.run s (before ++ [.stop])).phase = .shuttingDown reason ∧
            (server.run s (before ++ .stop :: after)).path =
              left (if (left own before).identity? = some identity then .vacant
                else left own before) after) := by
  intro asked server own fails binds
  have hfails : fails ↔ path.isFree = false := start_fails_iff
  have hbinds : binds ↔ path.isFree = true := by
    refine ⟨fun hbound => start_eq_ok_iff.1 hbound.1, fun hfree => ?_⟩
    have hserver := started_of_isFree hfree identity watching cancellation
    exact ⟨start_eq_ok_iff.2 hfree, congrArg Server.phase hserver, congrArg Server.path hserver⟩
  have hunreached (hother : ¬(path = .vacant ∨ path.IsDead)) :
      path.isFree = true ↔ path.IsUnreached := by
    rw [SocketPath.isFree_iff, or_iff_right hother]
  refine ⟨fun hfree => hbinds.2 (SocketPath.isFree_iff.2 (Or.inl hfree)), fun hother => ?_, ?_, ?_⟩
  · refine ⟨?_, hbinds.trans (hunreached hother)⟩
    rw [hfails, ← hunreached hother, Bool.not_eq_true]
  · intro hfailed events
    have hserver : server = asked :=
      started_of_not_isFree (hfails.1 hfailed) identity watching cancellation
    have hstarting : server.phase = .starting := congrArg Server.phase hserver
    have hpath : server.path = path := congrArg Server.path hserver
    have hnot : server.phase ≠ .listening := by simp [hstarting]
    refine ⟨phase_run_of_starting s hstarting events, ?_⟩
    rw [path_run_of_not_listening s hnot, hpath]
  · intro hbound
    have hsocket : server.socket = some identity :=
      congrArg Server.socket (started_of_isFree (hbinds.1 hbound) identity watching cancellation)
    obtain ⟨-, hlistening, hpath⟩ := hbound
    refine ⟨fun events h => ?_, fun events h => exists_stop_of_run s hlistening h, ?_⟩
    · rw [(path_run_of_listening s h).2, hpath]
    · intro before after reason hphase hreason
      refine ⟨?_, ?_⟩
      · rw [run_concat, phase_stop s hphase hreason]
      · rw [path_run_of_stop s hsocket hphase hreason, hpath]

/-- A server that finds a dead socket and stops again, alone and after somebody has put another
    socket at the path, and servers that find a file and a live socket. -/
theorem own_socket_goes_and_others_stay :
    let server := started (.holds (.socket 3 .nobody)) 7 false {}
    let others : SocketPath := .holds (.socket 8 .reached)
    (server.run { caps := .npm } [.use 0 (.cancel .signal), .stop]).path = .vacant ∧
      (server.run { caps := .npm }
        [.pathChanged others, .use 0 (.cancel .signal), .stop]).path = others ∧
      ((started (.holds .file) 7 false {}).run { caps := .npm } [.stop]).path = .holds .file ∧
      ((started others 7 false {}).run { caps := .npm } [.stop]).path = others := by
  intro server others
  obtain ⟨hfree, -, -, hruns⟩ :=
    takes_away_own_or_unreached_socket { caps := .npm } (.holds (.socket 3 .nobody)) 7 false {}
  obtain ⟨-, -, hstop⟩ := hruns (hfree (Or.inr ⟨3, rfl⟩))
  obtain ⟨-, -, hfile, -⟩ :=
    takes_away_own_or_unreached_socket { caps := .npm } (.holds .file) 7 false {}
  obtain ⟨-, -, hlive, -⟩ := takes_away_own_or_unreached_socket { caps := .npm } others 7 false {}
  exact ⟨(hstop [.use 0 (.cancel .signal)] [] .signal rfl rfl).2,
    (hstop [.pathChanged others, .use 0 (.cancel .signal)] [] .signal rfl rfl).2,
    (hfile ⟨.addrInUse, rfl⟩ [.stop]).2, (hlive ⟨.addrInUse, rfl⟩ [.stop]).2⟩

/-- A server that finds a socket whose listener is alive, with its queue of connections full: the
    start does not fail, the socket is gone, and nothing is left at the path when the server has
    stopped. -/
theorem live_socket_with_full_queue_is_lost :
    let path : SocketPath := .holds (.socket 3 (.behind .fullQueue))
    let server := started path 7 false {}
    path.IsLive ∧ path ≠ .vacant ∧ ¬path.IsDead ∧
      (({ path := path } : Server).start 7).1 = .ok () ∧
      server.path = .holds (.socket 7 .reached) ∧
      (server.run { caps := .npm } [.use 0 (.cancel .signal), .stop]).path = .vacant :=
  ⟨⟨3, .behind .fullQueue, rfl, nofun⟩, nofun, nofun, rfl, rfl, rfl⟩

end Server

end DepSpec
