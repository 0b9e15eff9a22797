import BtTracker.Semantics.World

/-!
# Runs of the tracker

Datagrams handled one after another, starting from an empty database.  Between
two of them time may pass, the operator may edit the lists of info hashes, and
the next datagram may be taken by another thread.
-/

namespace BtTracker

open BtTracker.Foundation

/-- A datagram and the world it was handled in. -/
structure Served where
  world : World
  arrival : Arrival

/-- Worlds a run may reach from another one, with the datagrams handled on the
way, the last one first.  A datagram that crashes its worker does not end the
run: the database survives a restart of the tracker. -/
inductive Run (host : Host) (config : BtConfig) (origin : World) :
    World → List Served → Prop where
  | start : Run host config origin origin []
  | serve {world : World} {history : List Served}
      (run : Run host config origin world history) (arrival : Arrival) :
      Run host config origin (world.serve host config arrival).2 (⟨world, arrival⟩ :: history)
  | rest {world : World} {history : List Served}
      (run : Run host config origin world history) (seconds : Nat) (next : World)
      (clock : next.store.now = world.store.now + seconds)
      (others : ∀ key, key ≠ restrictionKey config (ascii "wl") →
        key ≠ restrictionKey config (ascii "bl") →
          next.store.find? key = (world.store.advance seconds).find? key) :
      Run host config origin next history

/-- Handle datagrams one after another, and note what each one met, the last one
first. -/
def World.serveAll (host : Host) (config : BtConfig) (world : World) (history : List Served) :
    List Arrival → World × List Served
  | [] => (world, history)
  | arrival :: arrivals =>
      (world.serve host config arrival).2.serveAll host config (⟨world, arrival⟩ :: history) arrivals

/-- Worlds that runs from an empty database reach. -/
def Reachable (host : Host) (config : BtConfig) (world : World) (history : List Served) : Prop :=
  ∃ origin, (∀ key, origin.store.find? key = none) ∧ Run host config origin world history

namespace Reachable

variable {host : Host} {config : BtConfig} {world : World} {history : List Served}

/-- The tracker right after its first start. -/
theorem fresh : Reachable host config .start [] := ⟨_, Redis.Store.find?_empty, .start⟩

theorem serve (reached : Reachable host config world history) (arrival : Arrival) :
    Reachable host config (world.serve host config arrival).2 (⟨world, arrival⟩ :: history) := by
  obtain ⟨origin, empty, run⟩ := reached
  exact ⟨origin, empty, run.serve arrival⟩

theorem serveAll (reached : Reachable host config world history) (arrivals : List Arrival) :
    Reachable host config (world.serveAll host config history arrivals).1
      (world.serveAll host config history arrivals).2 := by
  induction arrivals generalizing world history with
  | nil => exact reached
  | cons arrival arrivals ih => exact ih (reached.serve arrival)

/-- Let time pass. -/
theorem wait (reached : Reachable host config world history) (seconds : Nat) :
    Reachable host config { world with store := world.store.advance seconds } history := by
  obtain ⟨origin, empty, run⟩ := reached
  exact ⟨origin, empty, run.rest seconds _ rfl fun _ _ _ => rfl⟩

end Reachable

end BtTracker
