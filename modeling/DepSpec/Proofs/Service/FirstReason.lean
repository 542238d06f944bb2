import DepSpec.Proofs.Service.Runs
import DepSpec.Proofs.Service.Waiting

set_option autoImplicit false

/-! # One reason to stop

A request to stop is used through its handles: by those who hold them, and by the server, which
requests the stop when a fatal answer was delivered or its peer is gone. All that the server does to
it is a sequence of such uses (`Server.cancellation_run`), so that what holds of every sequence of
uses holds of every run.

What a sequence of uses leaves is told by the first reason in it (`Cancellation.requests`): whoever
asks is told that reason, and so is whoever waits (`Cancellation.Tells`). -/

namespace DepSpec

namespace Cancellation

/-! ## Sequences of uses -/

/-- Operations one after the other, each through a handle. -/
def use (c : Cancellation) (uses : List (Nat × Op)) : Cancellation :=
  uses.foldl (fun c (handle, op) => (c.apply handle op).2) c

/-- The reason for which a use requests the stop, if it does; a handle that does not exist does
    nothing. -/
def request? (handles : Nat) : Nat × Op → Option StopReason
  | (handle, .cancel reason) => if handle < handles then some reason else none
  | _ => none

/-- How many handles there are after a use. -/
def handlesAfter (handles : Nat) : Nat × Op → Nat
  | (handle, .clone) => if handle < handles then handles + 1 else handles
  | _ => handles

/-- The reasons for which a stop is requested, in order, where there are `handles` handles at
    first. -/
def requests (handles : Nat) : List (Nat × Op) → List StopReason
  | [] => []
  | use :: uses => (request? handles use).toList ++ requests (handlesAfter handles use) uses

theorem use_append (c : Cancellation) (uses more : List (Nat × Op)) :
    c.use (uses ++ more) = (c.use uses).use more :=
  List.foldl_append ..

theorem use_cons (c : Cancellation) (handle : Nat) (op : Op) (uses : List (Nat × Op)) :
    c.use ((handle, op) :: uses) = (c.apply handle op).2.use uses := rfl

/-- What every operation keeps, every sequence of uses keeps. -/
theorem use_keeps {P : Cancellation → Prop} (hstep : ∀ c handle op, P c → P (c.apply handle op).2)
    {c : Cancellation} (h : P c) (uses : List (Nat × Op)) : P (c.use uses) := by
  induction uses generalizing c with
  | nil => exact h
  | cons use uses ih => exact ih (hstep c use.1 use.2 h)

/-! ## The first reason -/

theorem handles_apply (c : Cancellation) (handle : Nat) (op : Op) :
    (c.apply handle op).2.handles = handlesAfter c.handles (handle, op) := by
  unfold apply
  cases op with
  | cancel reason =>
    dsimp only [handlesAfter, cancel]
    split
    · split <;> rfl
    · rfl
  | clone =>
    dsimp only [handlesAfter]
    split <;> rfl
  | isCancelled | reason | wait => split <;> rfl

theorem le_handles_apply (c : Cancellation) (handle : Nat) (op : Op) :
    c.handles ≤ (c.apply handle op).2.handles := by
  rw [handles_apply]
  cases op with
  | clone =>
    dsimp only [handlesAfter]
    split
    · exact Nat.le_succ _
    · exact Nat.le_refl _
  | cancel | isCancelled | reason | wait => exact Nat.le_refl _

theorem reason_apply (c : Cancellation) (handle : Nat) (op : Op) :
    (c.apply handle op).2.reason = c.reason.or (request? c.handles (handle, op)) := by
  unfold apply
  cases op with
  | cancel reason =>
    dsimp only [request?]
    split
    · rw [reason_cancel]
      cases c.reason <;> rfl
    · exact Option.or_none.symm
  | clone | isCancelled | reason | wait =>
    refine Eq.trans ?_ Option.or_none.symm
    split <;> rfl

/-- **The first reason stays**, and it is the first one for which a stop is requested. -/
theorem reason_use (c : Cancellation) (uses : List (Nat × Op)) :
    (c.use uses).reason = c.reason.or (requests c.handles uses).head? := by
  induction uses generalizing c with
  | nil => exact Option.or_none.symm
  | cons use uses ih =>
    obtain ⟨handle, op⟩ := use
    rw [use_cons, ih, reason_apply, handles_apply, Option.or_assoc, requests, List.head?_append,
      Option.head?_toList]

theorem handles_use_pos {c : Cancellation} (h : 0 < c.handles) (uses : List (Nat × Op)) :
    0 < (c.use uses).handles :=
  use_keeps (P := fun c => 0 < c.handles)
    (fun c handle op h => Nat.lt_of_lt_of_le h (le_handles_apply c handle op)) h uses

/-- What is used later does not come first. -/
theorem head?_requests_append {handles : Nat} {uses : List (Nat × Op)} {reason : StopReason}
    (more : List (Nat × Op)) (h : (requests handles uses).head? = some reason) :
    (requests handles (uses ++ more)).head? = some reason := by
  induction uses generalizing handles with
  | nil => cases h
  | cons use uses ih =>
    rw [requests, List.head?_append] at h
    rw [List.cons_append, requests, List.head?_append]
    cases hrequest : (request? handles use).toList.head? with
    | some first =>
      rw [hrequest] at h
      exact h
    | none =>
      rw [hrequest] at h
      exact ih h

/-! ## What is told -/

/-- All that a request to stop tells is the first reason: to those who request a stop as well,
    whether they came first, to those who ask, and to those who wait. -/
structure Tells (c : Cancellation) (first : Option StopReason) : Prop where
  cancel : ∀ handle < c.handles, ∀ reason,
    (c.apply handle (.cancel reason)).1 = .flag first.isNone
  reason : ∀ handle < c.handles, (c.apply handle .reason).1 = .reason first
  isCancelled : ∀ handle < c.handles, (c.apply handle .isCancelled).1 = .flag first.isSome
  poll : ∀ waiter < c.waiters.length, c.poll waiter = first

/-- Everybody who waits has been told the reason, if there is one. -/
def Informed (c : Cancellation) : Prop := ∀ told ∈ c.waiters, told = c.reason

theorem Informed.apply {c : Cancellation} (h : c.Informed) (handle : Nat) (op : Op) :
    (c.apply handle op).2.Informed := by
  unfold Cancellation.apply
  split
  · cases op with
    | cancel reason =>
      dsimp only [Cancellation.cancel]
      split
      · exact h
      · intro told htold
        obtain ⟨_, -, rfl⟩ := List.mem_map.1 htold
        rfl
    | wait =>
      intro told htold
      rcases List.mem_append.1 htold with hold | hnew
      · exact h told hold
      · exact List.mem_singleton.1 hnew
    | clone | isCancelled | reason => exact h
  · exact h

theorem Informed.tells {c : Cancellation} (h : c.Informed) : c.Tells c.reason where
  cancel handle hhandle reason := by
    rw [Cancellation.apply, if_pos hhandle]
    dsimp only
    unfold Cancellation.cancel
    split
    · next hr =>
      rw [hr]
      rfl
    · next hr =>
      rw [hr]
      rfl
  reason handle hhandle := by rw [Cancellation.apply, if_pos hhandle]
  isCancelled handle hhandle := by
    rw [Cancellation.apply, if_pos hhandle]
    rfl
  poll waiter hwaiter := by
    rw [Cancellation.poll, List.getElem?_eq_getElem hwaiter]
    exact h _ (List.getElem_mem hwaiter)

/-- **A sequence of uses tells the first reason in it.** -/
theorem tells_use (uses : List (Nat × Op)) :
    (use {} uses).Tells (requests 1 uses).head? := by
  have hinformed : (use {} uses).Informed :=
    use_keeps (P := Informed) (fun _ handle op h => h.apply handle op) (by simp [Informed]) uses
  have htells := hinformed.tells
  rw [reason_use] at htells
  exact htells

/-! ## Waiters -/

theorem length_waiters_apply (c : Cancellation) (handle : Nat) (op : Op) :
    c.waiters.length ≤ (c.apply handle op).2.waiters.length := by
  unfold apply
  split
  · cases op with
    | cancel reason =>
      dsimp only [cancel]
      split
      · exact Nat.le_refl _
      · exact Nat.le_of_eq (List.length_map ..).symm
    | wait =>
      dsimp only [wait]
      rw [List.length_append]
      exact Nat.le_add_right ..
    | clone | isCancelled | reason => exact Nat.le_refl _
  · exact Nat.le_refl _

/-- A waiter is there as soon as it has begun to wait, and stays. -/
theorem lt_length_waiters (c : Cancellation) {handle : Nat} (hhandle : handle < c.handles)
    (later : List (Nat × Op)) :
    c.waiters.length < (c.use ((handle, .wait) :: later)).waiters.length := by
  have hstays := use_keeps (P := fun d => c.waiters.length < d.waiters.length)
    (fun d handle op h => Nat.lt_of_lt_of_le h (length_waiters_apply d handle op))
    (c := c.wait.2) (by simp [wait]) later
  rw [use_cons, apply, if_pos hhandle]
  exact hstays

/-- A waiter is told the first reason, whether that comes before or after the wait begins. -/
theorem poll_use {uses early late : List (Nat × Op)} {handle : Nat}
    (huses : uses = early ++ (handle, .wait) :: late) (hhandle : handle < (use {} early).handles) :
    ∃ waiter, ((use {} early).apply handle .wait).1 = .waiter waiter ∧
      (use {} uses).poll waiter = (requests 1 uses).head? := by
  refine ⟨(use {} early).waiters.length, ?_, (tells_use uses).poll _ ?_⟩
  · rw [apply, if_pos hhandle]
    rfl
  · rw [huses, use_append]
    exact lt_length_waiters _ hhandle late

/-- What a waiter knows fits the request at every moment of the wait. -/
theorem fits_follow {c : Cancellation} {w : Waiting} (h : w.Fits c.channel)
    (moments : List (Option (Nat × Op))) :
    (w.follow c moments).Fits (c.use (moments.filterMap id)).channel := by
  induction moments generalizing c w with
  | nil => exact h
  | cons moment moments ih =>
    cases moment with
    | none => exact ih h.step
    | some use => exact ih (h.apply use.1 use.2)

/-- **The waiting gives what `poll` tells.** Whatever the moments in which a waiter makes its steps
    while the later uses are made, it is told nothing but what `poll` tells, and that is what it comes
    to. -/
theorem waiting_eq_poll {uses early late : List (Nat × Op)} {handle waiter : Nat}
    (huses : uses = early ++ (handle, .wait) :: late)
    (hpoll : (use {} uses).poll waiter = (requests 1 uses).head?)
    {moments : List (Option (Nat × Op))} (hmoments : moments.filterMap id = late) :
    let w := Waiting.begun.follow ((use {} early).apply handle .wait).2 moments
    (∀ reason, w.reason? = some reason → (use {} uses).poll waiter = some reason) ∧
      (w.settle (use {} uses).channel).reason? = (use {} uses).poll waiter := by
  intro w
  have hfits : w.Fits (use {} uses).channel := by
    have h := fits_follow (c := ((use {} early).apply handle .wait).2) (w := .begun) trivial moments
    rwa [hmoments, ← use_cons, ← use_append, ← huses] at h
  have hvalue : (use {} uses).channel.value = (use {} uses).poll waiter := by
    rw [hpoll, channel, reason_use]
    exact Option.none_or
  refine ⟨fun reason htold => ?_, ?_⟩
  · rw [← hvalue, hfits.value_eq htold]
  · rw [hfits.settle, hvalue]

end Cancellation

namespace Server

/-! ## What a server does to a request to stop -/

variable (s : Service)

/-- How an event uses the request to stop, if it does. The server has a handle of its own. -/
def use? (server : Server) : Event → Option (Nat × Cancellation.Op)
  | .use handle op => some (handle, op)
  | e => (server.request? s e).map fun reason => (0, .cancel reason)

/-- How a run uses the request to stop. -/
def uses (server : Server) : List Event → List (Nat × Cancellation.Op)
  | [] => []
  | e :: events => (server.use? s e).toList ++ uses (server.step s e) events

theorem cancellation_cancel {server : Server} (hhandles : 0 < server.cancellation.handles)
    (reason : StopReason) :
    (server.cancel reason).cancellation = server.cancellation.use [(0, .cancel reason)] := by
  rw [Cancellation.use_cons, Cancellation.apply, if_pos hhandles]
  rfl

/-- **A step is one use or none.** -/
theorem cancellation_step {server : Server} (hhandles : 0 < server.cancellation.handles)
    (e : Event) :
    (server.step s e).cancellation = server.cancellation.use (server.use? s e).toList := by
  cases e with
  | respond i delivered =>
    simp only [step, use?, request?]
    by_cases hrunning : server.isRunning = true
    · rw [if_pos hrunning, respond, hrunning]
      cases hi : server.connections[i]? with
      | none => simp [Cancellation.use]
      | some c =>
        simp only [Bool.true_and, Option.any_some]
        split
        · exact cancellation_cancel hhandles .fatal
        · rfl
    · simp [hrunning, Cancellation.use]
  | peerCheck alive =>
    simp only [step, use?, request?]
    split
    · exact cancellation_cancel hhandles .peerExited
    · rfl
  | accept | read | lose | notice =>
    rw [step]
    split <;> rfl
  | stop =>
    rw [step, stop]
    split <;> rfl
  | finish =>
    rw [step, finish]
    split <;> rfl
  | use | pathChanged => rfl

/-- **All that a run does to the request to stop is to use it.** -/
theorem cancellation_run {server : Server} (hhandles : 0 < server.cancellation.handles)
    (events : List Event) :
    (server.run s events).cancellation = server.cancellation.use (server.uses s events) := by
  induction events generalizing server with
  | nil => rfl
  | cons e events ih =>
    have hstep := cancellation_step s hhandles e
    have hstays : 0 < (server.step s e).cancellation.handles := by
      rw [hstep]
      exact Cancellation.handles_use_pos hhandles _
    rw [run_cons, ih hstays, hstep, uses, Cancellation.use_append]

theorem cancellation_started (path : SocketPath) (identity : Nat) (watching : Bool)
    (cancellation : Cancellation) :
    (started path identity watching cancellation).cancellation = cancellation := by
  unfold started start
  split <;> rfl

/-- **One reason to stop.** A request to stop may be used in any way, by others before the server
    starts (`before`) and by others and the server in a run. At every time it tells the first reason
    for which a stop was requested, to everybody who asks or waits, and that reason stays. Whoever
    waits, with its steps at any moments of the wait, is told no other reason, and is told that one
    when it is left alone. The server returns no other reason, so that its exit code is 1 exactly if
    the first request was a fatal one. A server that has bound its socket does return, once it has
    seen the request and has closed its connections. -/
theorem one_reason (path : SocketPath) (identity : Nat) (watching : Bool)
    (before : List (Nat × Cancellation.Op)) (events : List Event) :
    let start := started path identity watching (Cancellation.use {} before)
    let server := start.run s events
    let uses := before ++ start.uses s events
    let first := (Cancellation.requests 1 uses).head?
    server.cancellation = Cancellation.use {} uses ∧
      server.cancellation.Tells first ∧
      (∀ early handle late, uses = early ++ (handle, .wait) :: late →
        handle < (Cancellation.use {} early).handles →
        ∃ waiter, ((Cancellation.use {} early).apply handle .wait).1 = .waiter waiter ∧
          server.cancellation.poll waiter = first ∧
          ∀ moments, moments.filterMap id = late →
            let w := Waiting.begun.follow ((Cancellation.use {} early).apply handle .wait).2 moments
            (∀ reason, w.reason? = some reason → first = some reason) ∧
              (w.settle server.cancellation.channel).reason? = first) ∧
      (∀ reason, first = some reason →
        ∀ more, (server.cancellation.use more).Tells (some reason)) ∧
      (∀ reason, server.outcome? = some reason →
        first = some reason ∧ (reason.exitCode = 1 ↔ first = some .fatal)) ∧
      (path.isFree = true → ∀ reason, first = some reason → ∀ between after,
        (server.run s (.stop :: between ++ .finish :: after)).outcome? = some reason) := by
  intro start server uses first
  have hcancellation : server.cancellation = Cancellation.use {} uses := by
    have hstart : start.cancellation = Cancellation.use {} before := cancellation_started ..
    have hhandles : 0 < start.cancellation.handles := by
      rw [hstart]
      exact Cancellation.handles_use_pos Nat.one_pos before
    rw [cancellation_run s hhandles, hstart, ← Cancellation.use_append]
  have htells : server.cancellation.Tells first := hcancellation ▸ Cancellation.tells_use uses
  have hreason : server.cancellation.reason = first := by
    rw [hcancellation, Cancellation.reason_use]
    exact Option.none_or
  have hstops : server.StopsAsAsked :=
    stopsAsAsked_run s (stopsAsAsked_started path identity watching _) events
  refine ⟨hcancellation, htells, ?_, ?_, ?_, ?_⟩
  · intro early handle late huses hhandle
    rw [hcancellation]
    obtain ⟨waiter, hwaiter, hpoll⟩ := Cancellation.poll_use huses hhandle
    refine ⟨waiter, hwaiter, hpoll, fun moments hmoments => ?_⟩
    have hwaiting := Cancellation.waiting_eq_poll huses hpoll hmoments
    rwa [hpoll] at hwaiting
  · intro reason hfirst more
    have hmore := Cancellation.tells_use (uses ++ more)
    rw [Cancellation.use_append, ← hcancellation] at hmore
    rwa [Cancellation.head?_requests_append more hfirst] at hmore
  · intro reason houtcome
    have hfirst : first = some reason := by
      rw [← hreason]
      exact hstops reason (Or.inr (phase_of_outcome? houtcome))
    refine ⟨hfirst, ?_⟩
    rw [hfirst]
    cases reason <;> simp [StopReason.exitCode]
  · intro hfree reason hfirst between after
    have hbound : progress start.phase = 1 := by
      simp only [start, started_of_isFree hfree, progress]
    exact outcome?_run_of_progress s hstops (hbound ▸ progress_run s start events)
      (hreason.trans hfirst) [] between after

/-- A wait that begins before two requests, the first of which is fatal, and one that begins after
    them: both waiters are told of the first request, and the server returns it. -/
theorem second_request_changes_nothing :
    let start := started .vacant 7 false (Cancellation.use {} [(0, .wait), (0, .clone)])
    let server := start.run { caps := .npm }
      [.use 1 (.cancel .fatal), .use 0 (.cancel .signal), .use 1 .wait]
    server.cancellation.Tells (some .fatal) ∧
      server.cancellation.poll 0 = some .fatal ∧ server.cancellation.poll 1 = some .fatal ∧
      (server.run { caps := .npm } [.stop, .finish]).outcome? = some .fatal := by
  obtain ⟨-, htells, hwait, -, -, hreturns⟩ := one_reason { caps := .npm } .vacant 7 false
    [(0, .wait), (0, .clone)] [.use 1 (.cancel .fatal), .use 0 (.cancel .signal), .use 1 .wait]
  obtain ⟨early, hearly, hpollEarly, -⟩ := hwait [] 0 _ rfl (by decide)
  obtain ⟨late, hlate, hpollLate, -⟩ :=
    hwait [(0, .wait), (0, .clone), (1, .cancel .fatal), (0, .cancel .signal)] 1 [] rfl (by decide)
  cases hearly
  cases hlate
  exact ⟨htells, hpollEarly, hpollLate, hreturns rfl .fatal rfl [] []⟩

end Server

end DepSpec
