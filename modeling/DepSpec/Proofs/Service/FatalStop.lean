import DepSpec.Proofs.Service.Runs

set_option autoImplicit false

/-! # Fatal answers and the end of the service

An answer that is fatal to the service requests the stop only if it reaches its client: the
response is written first, and a connection that cannot write ends before the request is made. The
main statement gives the request to stop after a fatal frame was handled, in every reachable state
and for both outcomes of the write, and says that a server with a request to stop does stop. -/

namespace DepSpec

namespace Connection

variable {s : Service} {c : Connection} {frame : Frame} {queue : List Frame}

theorem isFatalNext_eq (h : c.queue = frame :: queue) : c.isFatalNext s = s.isFatal frame := by
  rw [isFatalNext, h]

theorem respond_not_delivered (h : c.queue = frame :: queue) :
    c.respond s false = c.close .lost := by
  rw [respond, h]
  rfl

end Connection

theorem Service.isFatal_of_unrecognizedOperator {s : Service} {text op : String}
    (h : s.caps.classify text = .error (.unrecognizedOperator op)) :
    s.isFatal (.request text) = true := by
  rw [isFatal, outcome, h]
  rfl

namespace Server

/-- Handling a fatal frame requests the stop if the answer is delivered, and does not touch the
    request to stop otherwise. -/
theorem reason_respond_fatal {s : Service} {server : Server} {i : Nat} {c : Connection}
    {frame : Frame} {queue : List Frame} (hrunning : server.isRunning = true)
    (hc : server.connections[i]? = some c) (hqueue : c.queue = frame :: queue)
    (hfatal : s.isFatal frame = true) (delivered : Bool) :
    (server.step s (.respond i delivered)).cancellation.reason =
      if delivered then some (server.cancellation.reason.getD .fatal)
      else server.cancellation.reason := by
  have hnext : (server.connections[i]?).any (·.isFatalNext s) = true := by
    rw [hc, Option.any_some, Connection.isFatalNext_eq hqueue, hfatal]
  rw [reason_step, request?, hrunning, hnext]
  cases delivered <;> cases server.cancellation.reason <;> rfl

/-- The connection of an answer that is not delivered is lost. -/
theorem getElem?_respond_not_delivered {s : Service} {server : Server} {i : Nat} {c : Connection}
    {frame : Frame} {queue : List Frame} (hrunning : server.isRunning = true)
    (hc : server.connections[i]? = some c) (hqueue : c.queue = frame :: queue) :
    (server.step s (.respond i false)).connections[i]? = some (c.close .lost) := by
  rw [step, if_pos hrunning, connections_respond, onConnection, List.getElem?_modify, hc]
  simp [Connection.respond_not_delivered hqueue]

/-- **A fatal answer stops the server if and only if it is delivered.** In every reachable state,
    handling a frame with an unknown operator requests the stop exactly if the response was written
    or the stop was requested before, with the first reason or else as fatal. A server that was
    asked to stop does stop for that reason, whatever happens in between. An answer that was not
    delivered costs the connection and leaves the server in its phase. -/
theorem cancelled_iff_fatal_answer_delivered {s : Service} {server : Server}
    (hserver : server.Reachable s) (hrunning : server.isRunning = true) {i : Nat} {c : Connection}
    (hc : server.connections[i]? = some c) {text op : String} {queue : List Frame}
    (hqueue : c.queue = .request text :: queue)
    (hfatal : s.caps.classify text = .error (.unrecognizedOperator op)) (delivered : Bool) :
    let next := server.step s (.respond i delivered)
    (next.cancellation.isCancelled = true ↔
        delivered = true ∨ server.cancellation.isCancelled = true) ∧
      (next.cancellation.isCancelled = true →
        next.cancellation.reason = some (server.cancellation.reason.getD .fatal) ∧
          ∀ before between after,
            (next.run s (before ++ .stop :: between ++ .finish :: after)).outcome? =
              some (server.cancellation.reason.getD .fatal)) ∧
      (delivered = false →
        next.connections[i]? = some (c.close .lost) ∧ next.phase = server.phase ∧
          next.cancellation.reason = server.cancellation.reason) := by
  have hreason := reason_respond_fatal hrunning hc hqueue
    (Service.isFatal_of_unrecognizedOperator hfatal) delivered
  have hphase : (server.step s (.respond i delivered)).phase = server.phase := by
    rcases phase_step s server (.respond i delivered) with hp | ⟨_, he, -⟩ | ⟨_, he, -⟩
    · exact hp
    · cases he
    · cases he
  intro next
  have hrun : next.isRunning = true := by
    rw [isRunning, hphase]
    exact hrunning
  refine ⟨?_, ?_, ?_⟩
  · rw [isCancelled_iff, isCancelled_iff, hreason]
    cases delivered <;> simp
  · intro hcancelled
    have hfirst : next.cancellation.reason = some (server.cancellation.reason.getD .fatal) := by
      obtain ⟨reason, hr⟩ := isCancelled_iff.1 hcancelled
      rw [hreason] at hr ⊢
      cases delivered with
      | true => rfl
      | false =>
        rw [if_neg Bool.false_ne_true] at hr ⊢
        rw [hr]
        rfl
    refine ⟨hfirst, fun before between after => ?_⟩
    exact outcome?_run_of_reason s (stopsAsAsked_step s hserver.stopsAsAsked _) hrun hfirst
      before between after
  · rintro rfl
    exact ⟨getElem?_respond_not_delivered hrunning hc hqueue, hphase, hreason⟩

/-! ## A client that does not stay -/

/-- Capabilities that no longer agree: every text is a range with an operator that nobody knows. -/
def driftedService : Service where
  caps :=
    { resolve := fun _ spec => .ok { kind := "range", raw := spec, fetch := some spec },
      parseRange := fun _ => .ok [[⟨"~=", .any⟩]] }

/-- A client of that service that asks for `drift` without a line feed and ends its stream. -/
def driftEvents : List Event :=
  [.accept, .read 0 (Text.encodeText "drift".toList), .read 0 []]

/-- A server with one frame to answer, which is fatal. -/
def driftServer : Server := (started .vacant 1 false {}).run driftedService driftEvents

/-- The connection of that client. -/
def driftConnection : Connection :=
  { framer := .fresh .newline 65536, phase := .flushing, queue := [.request "drift"],
    reads := [Text.encodeText "drift".toList] }

theorem getElem?_driftServer : driftServer.connections[0]? = some driftConnection := by
  decide +kernel

theorem classify_drift :
    driftedService.caps.classify "drift" = .error (.unrecognizedOperator "~=") := rfl

/-- A client that stays to read the fatal answer, which stops the server. -/
theorem fatal_answer_delivered_stops :
    (driftServer.step driftedService (.respond 0 true)).cancellation.reason = some .fatal ∧
      ((driftServer.step driftedService (.respond 0 true)).run driftedService
        [.stop, .finish]).outcome? = some .fatal := by
  have hserver : driftServer.Reachable driftedService :=
    ⟨.vacant, 1, false, {}, driftEvents, rfl⟩
  obtain ⟨hiff, hstops, -⟩ := cancelled_iff_fatal_answer_delivered hserver (by decide +kernel)
    getElem?_driftServer rfl classify_drift true
  obtain ⟨hreason, houtcome⟩ := hstops (hiff.2 (Or.inl rfl))
  exact ⟨hreason, houtcome [] [] []⟩

/-- The same client gone before the answer is written: the frame is handled, its classification is
    fatal, and nobody has asked the server to stop. -/
theorem fatal_answer_undelivered_goes_on :
    driftServer.connections[0]? = some driftConnection ∧
      driftConnection.queue = [.request "drift"] ∧
      driftedService.caps.classify "drift" = .error (.unrecognizedOperator "~=") ∧
      (driftServer.step driftedService (.respond 0 false)).cancellation.isCancelled = false ∧
      ((driftServer.step driftedService (.respond 0 false)).run driftedService
        [.stop, .finish]).phase = .listening :=
  ⟨getElem?_driftServer, rfl, classify_drift, by decide +kernel, by decide +kernel⟩

end Server

end DepSpec
