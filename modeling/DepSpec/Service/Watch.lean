import DepSpec.Service.Cancellation

set_option autoImplicit false

/-! # Waiting for a request to stop

A request to stop is kept in a value that can be watched (`Watch`): every change makes a new version
of it, and a watcher remembers the version that it has seen last. Whoever waits looks at the value,
and if there is no reason in it sleeps until there is a version that it has not seen (`Waiting`). Each
step of the waiting is one operation on the value, and anything may be done to the value between
two of them (`Waiting.follow`). -/

namespace DepSpec

/-! ## Watched values -/

/-- A value that can be watched, and the number of its changes. -/
structure Watch (α : Type) where
  value : α
  version : Nat := 0
  deriving Repr, DecidableEq

/-- Let `modify` look at the value and change it. Only what it calls a change is a new version. -/
def Watch.sendIfModified {α : Type} (v : Watch α) (modify : α → Bool × α) : Bool × Watch α :=
  match modify v.value with
  | (true, value) => (true, { value := value, version := v.version + 1 })
  | (false, value) => (false, { v with value := value })

namespace Cancellation

/-- The watched value of a request to stop; only the first reason is a change. -/
def channel (c : Cancellation) : Watch (Option StopReason) :=
  { value := c.reason, version := if c.reason.isSome then 1 else 0 }

/-- How a request for this reason changes the value: not at all if there is a reason in it. -/
def modify (reason : StopReason) : Option StopReason → Bool × Option StopReason
  | some first => (false, some first)
  | none => (true, some reason)

/-- **To cancel is to send a reason where there is none.** -/
theorem sendIfModified_channel (c : Cancellation) (reason : StopReason) :
    c.channel.sendIfModified (modify reason) =
      ((c.cancel reason).1, (c.cancel reason).2.channel) := by
  unfold Watch.sendIfModified channel cancel
  cases h : c.reason with
  | none => rfl
  | some first => simp [modify, h]

end Cancellation

/-! ## Waiting -/

/-- How far somebody is who waits for a request to stop. -/
inductive Waiting where
  /-- It does not watch the value yet. -/
  | begun
  /-- It is about to look at the value, of which it has seen this version. -/
  | looking (seen : Nat)
  /-- It sleeps until there is another version. -/
  | sleeping (seen : Nat)
  | told (reason : StopReason)
  deriving Repr, DecidableEq

namespace Waiting

/-- The reason, once it was told. -/
def reason? : Waiting → Option StopReason
  | .told reason => some reason
  | _ => none

/-- One step of the waiting: to subscribe to the value as it is, to look at it, or to wake up if it
    has changed. -/
def step (v : Watch (Option StopReason)) : Waiting → Waiting
  | .begun => .looking v.version
  | .looking _ =>
    match v.value with
    | some reason => .told reason
    | none => .sleeping v.version
  | .sleeping seen => if v.version = seen then .sleeping seen else .looking v.version
  | .told reason => .told reason

/-- What the waiting comes to when nobody does anything else: no more than two steps are left. -/
def settle (v : Watch (Option StopReason)) (w : Waiting) : Waiting := (w.step v).step v

/-- How far the waiting is after some moments, in each of which it makes a step (`none`) or somebody
    uses a handle. -/
def follow (c : Cancellation) (w : Waiting) : List (Option (Nat × Cancellation.Op)) → Waiting
  | [] => w
  | none :: moments => (w.step c.channel).follow c moments
  | some (handle, op) :: moments => w.follow (c.apply handle op).2 moments

end Waiting

end DepSpec
