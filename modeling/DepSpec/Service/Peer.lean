set_option autoImplicit false

/-! # The peer process

A service runs for a peer and stops once the peer has exited. Whether a process with some id runs
is asked of the system; ids that no process can have are never asked about. -/

namespace DepSpec

/-- The largest id that a process can have. -/
def maxProcessId : Nat := 2147483647

/-- Whether the process `pid` lives, where `running` tells which ids belong to running processes.
    The id 0 names no process. -/
def peerAlive (running : Nat → Bool) (pid : Nat) : Bool :=
  0 < pid && pid ≤ maxProcessId && running pid

end DepSpec
