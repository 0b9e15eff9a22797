import BtTracker.Model.Conf
import BtTracker.Semantics.Pool

/-!
# Starting the tracker

`main` up to its receive loop: the configuration, the thread pool and the socket.
-/

namespace BtTracker

open BtTracker.Foundation

/-- The codes of `bt_exit` that `main` exits with. -/
inductive BtExit where
  | configError
  | networkError
  deriving DecidableEq, Repr

/-- What the network lets the tracker have: an address, a socket and a port to
bind it to. -/
structure Network where
  resolves : Option Bytes → BitVec 16 → Bool
  opens : Bool
  binds : Option Bytes → BitVec 16 → Bool

/-- How the start of the tracker ends. -/
inductive Startup where
  | exits (code : BtExit)
  | crashes
  | serves (options : BtOptions) (pool : Pool)

/-- `bt_new_request_processor_pool`.  An exclusive pool starts all of its threads at
once and keeps them. -/
def btNewRequestProcessorPool (options : BtOptions) : Pool :=
  { Pool.start with threads := List.replicate options.threadMax.toNat ⟨none, none⟩ }

/-- `main`, given the number of its arguments and the key file named by the second
one. -/
def main (argc : Nat) (file : Option KeyFile) (network : Network) : Startup :=
  if argc ≠ 2 then .exits .configError
  else
    match btLoadConfig file with
    | .failed => .exits .configError
    | .fault => .crashes
    | .loaded options =>
        let pool := btNewRequestProcessorPool options
        if !network.resolves options.bttrackerAddr options.bttrackerPort then
          .exits .networkError
        else if !network.opens then .exits .networkError
        else if !network.binds options.bttrackerAddr options.bttrackerPort then
          .exits .networkError
        else .serves options pool

end BtTracker
