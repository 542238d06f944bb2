set_option autoImplicit false

/-! # Cancellation

A request to stop, shared by all parts of a service through handles. The first reason wins, so
that the exit code tells what really began the shutdown. Whoever waits for it is told that reason,
whether the wait began before or after. -/

namespace DepSpec

/-- Why a service stops. -/
inductive StopReason where
  /-- The peer process is gone. -/
  | peerExited
  /-- The service was told to stop. -/
  | signal
  /-- A request met an error that the service cannot go on from. -/
  | fatal
  deriving Repr, DecidableEq

/-- The exit code of a process that stops for a reason. -/
def StopReason.exitCode : StopReason → Nat
  | .peerExited => 0
  | .signal => 0
  | .fatal => 1

/-- A request to stop that may still come, with its handles and those who wait for it. -/
structure Cancellation where
  /-- The reason, once there is one. -/
  reason : Option StopReason := none
  /-- How many handles there are. -/
  handles : Nat := 1
  /-- What each waiter has been told, in the order in which the waits began. -/
  waiters : List (Option StopReason) := []
  deriving Repr, DecidableEq

namespace Cancellation

/-- Request the stop. Tells whether this was the first request; a later one changes nothing. -/
def cancel (c : Cancellation) (reason : StopReason) : Bool × Cancellation :=
  match c.reason with
  | some _ => (false, c)
  | none => (true, { c with reason := some reason, waiters := c.waiters.map fun _ => some reason })

/-- Whether the stop was requested. -/
def isCancelled (c : Cancellation) : Bool := c.reason.isSome

/-- One handle more. -/
def clone (c : Cancellation) : Cancellation := { c with handles := c.handles + 1 }

/-- Begin to wait. The waiter is known by its number. -/
def wait (c : Cancellation) : Nat × Cancellation :=
  (c.waiters.length, { c with waiters := c.waiters ++ [c.reason] })

/-- What a waiter has been told. -/
def poll (c : Cancellation) (waiter : Nat) : Option StopReason := (c.waiters[waiter]?).join

/-! ## Operations through handles -/

/-- What can be done with a handle. -/
inductive Op where
  | cancel (reason : StopReason)
  | clone
  | isCancelled
  | reason
  | wait
  deriving Repr, DecidableEq

/-- What an operation gives back. -/
inductive Reply where
  | done
  | flag (b : Bool)
  | reason (r : Option StopReason)
  | waiter (n : Nat)
  deriving Repr, DecidableEq

/-- An operation through a handle; a handle that does not exist does nothing. -/
def apply (c : Cancellation) (handle : Nat) (op : Op) : Reply × Cancellation :=
  if handle < c.handles then
    match op with
    | .cancel reason => (.flag (c.cancel reason).1, (c.cancel reason).2)
    | .clone => (.done, c.clone)
    | .isCancelled => (.flag c.isCancelled, c)
    | .reason => (.reason c.reason, c)
    | .wait => (.waiter c.wait.1, c.wait.2)
  else (.done, c)

/-- The first reason stays. -/
theorem reason_cancel (c : Cancellation) (reason : StopReason) :
    (c.cancel reason).2.reason = some (c.reason.getD reason) := by
  unfold cancel
  split
  · next r h => simp [h]
  · next h => simp [h]

end Cancellation

end DepSpec
