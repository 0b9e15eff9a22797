import BtTracker.Correctness.Reach
import BtTracker.Correctness.Reads

/-!
# Peers that leave

The last announce of a peer removes its record under the role the packet itself
suggests.  A record that was filed under the other role stays.  Once both keys
of a peer are gone, they stay away, and no job reads them, until the peer
announces itself again.
-/

namespace BtTracker

open BtTracker.Foundation

variable {host : Host} {config : BtConfig} {infoHash peerId : Octets 20}

section Definitions

variable (host config infoHash peerId)

/-- The database holds no record of a peer. -/
def Gone (store : Redis.Store) : Prop :=
  ∀ isSeeder, store.find? ((KeyName.peer infoHash isSeeder peerId).encode host config) = none

/-- A peer announces itself, and is admitted. -/
structure Served.Joins (served : Served) : Prop where
  admitted : served.world.Admitted host config served.arrival
  registers : served.arrival.Registers host
  infoHash : (served.arrival.announce host).infoHash = infoHash
  peerId : (served.arrival.announce host).peerId = peerId

/-- A peer has left the swarm: it has no record, and no later answer is made from
one before it joins again. -/
structure Departed (world : World) : Prop where
  gone : Gone host config infoHash peerId world.store
  unlisted : ∀ later future, Run host config world later future →
    (∀ served ∈ future, ¬served.Joins host config infoHash peerId) →
      ∀ served ∈ future, ∀ isSeeder,
        (served.world.serve host config served.arrival).2.Unread
          ((KeyName.peer infoHash isSeeder peerId).encode host config)

end Definitions

/-! ## Staying away -/

namespace Gone

/-- Only the peer's own announce brings it back: a promotion needs a record to
move. -/
theorem updates {datagram : Datagram} {store after : Redis.Store}
    (gone : Gone host config infoHash peerId store)
    (updates : datagram.Updates host config store after)
    (stranger : datagram.Registers host →
      ¬((datagram.announce host).infoHash = infoHash ∧
        (datagram.announce host).peerId = peerId)) :
    Gone host config infoHash peerId after := by
  intro isSeeder
  by_contra present
  obtain ⟨entry, found⟩ := Option.ne_none_iff_exists'.mp present
  rcases updates.find?_cases found with kept | ⟨registers, _, named, _⟩ | ⟨_, named, moved⟩ | named
  · cases (gone isSeeder).symm.trans kept
  · cases named
    exact stranger registers ⟨rfl, rfl⟩
  · cases named
    cases (gone false).symm.trans moved
  · cases named

theorem serve {world : World} {arrival : Arrival}
    (gone : Gone host config infoHash peerId world.store)
    (stranger : ¬Served.Joins host config infoHash peerId ⟨world, arrival⟩) :
    Gone host config infoHash peerId (world.serve host config arrival).2.store := by
  rcases world.records_serve_cases host config arrival with ⟨admitted, updates⟩ | kept
  · exact gone.updates updates fun registers ⟨hash, peer⟩ =>
      stranger ⟨admitted, registers, hash, peer⟩
  · exact fun isSeeder => (kept ..).trans (gone isSeeder)

theorem run {origin world : World} {history : List Served}
    (gone : Gone host config infoHash peerId origin.store)
    (run : Run host config origin world history)
    (strangers : ∀ served ∈ history, ¬served.Joins host config infoHash peerId) :
    Gone host config infoHash peerId world.store := by
  induction run with
  | start => exact gone
  | serve run arrival ih =>
      have earlier := ih fun served member => strangers served (List.mem_cons_of_mem _ member)
      exact earlier.serve (strangers _ (List.mem_cons_self ..))
  | rest run seconds next clock others ih =>
      intro isSeeder
      have notList : ¬(KeyName.peer infoHash isSeeder peerId).IsList := id
      exact Run.missing_of_rest clock others notList (ih strangers isSeeder)

/-- Without a record, no answer is made from one. -/
theorem departed {world : World} (gone : Gone host config infoHash peerId world.store) :
    Departed host config infoHash peerId world := by
  refine ⟨gone, fun later future run strangers => ?_⟩
  induction run with
  | start => exact fun _ member => nomatch member
  | @serve current _ run arrival ih =>
      have others := fun served member => strangers served (List.mem_cons_of_mem _ member)
      have stranger := strangers _ (List.mem_cons_self ..)
      have missing := gone.run run others
      intro served member isSeeder
      rcases List.mem_cons.mp member with rfl | earlier
      · refine World.unread_serve (KeyName.encode_peer_ne_connectionKey host config _ _ _ _)
          (missing isSeeder) fun admitted => ?_
        have updates := current.updates_updated host config arrival admitted.accepted.1
        exact missing.updates updates
          (fun registers ⟨hash, peer⟩ => stranger ⟨admitted, registers, hash, peer⟩) isSeeder
      · exact ih others served earlier isSeeder
  | rest run seconds next clock others ih => exact ih strangers

end Gone

/-! ## The last announce -/

/-- The last announce of a peer takes it out of the swarm exactly if the database
holds no record of it under the other role. -/
theorem departed_iff {world : World} {arrival : Arrival}
    (admitted : world.Admitted host config arrival) (normal : arrival.Normal)
    (stopped : arrival.event host = some .stopped) :
    Departed host config (arrival.announce host).infoHash (arrival.announce host).peerId
        (world.serve host config arrival).2 ↔
      world.store.find? (arrival.recordKey host config (!arrival.isSeeder host)) = none := by
  have after (isSeeder : Bool) :
      (world.serve host config arrival).2.store.find? (arrival.recordKey host config isSeeder) =
        if arrival.isSeeder host = isSeeder then none
        else world.store.find? (arrival.recordKey host config isSeeder) := by
    rw [world.store_serve_of_admitted_normal host config arrival admitted normal,
      Datagram.find?_update_of_stopped stopped]
    simp
  constructor
  · intro departed
    have missing := after (!arrival.isSeeder host)
    rw [if_neg (by simp)] at missing
    exact missing.symm.trans (departed.gone _)
  · intro missing
    refine Gone.departed fun isSeeder => (after isSeeder).trans ?_
    split
    · rfl
    · rename_i other
      have flipped : isSeeder = !arrival.isSeeder host := Bool.eq_not.mpr (Ne.symm other)
      rw [flipped, missing]

/-- A leecher that just announced itself. -/
def leecherSeen : World := (World.start.serve .little .shipped (.sample 5 2)).2

/-- It leaves with something still to download. -/
theorem departed_leecher : Departed .little .shipped
    ((Arrival.sample 5 3).announce .little).infoHash
    ((Arrival.sample 5 3).announce .little).peerId
    (leecherSeen.serve .little .shipped (.sample 5 3)).2 := by
  have missing : (leecherSeen.store.find? ((Arrival.sample 5 3).recordKey .little .shipped
      (!(Arrival.sample 5 3).isSeeder .little))).isNone = true := by decide +kernel
  exact (departed_iff (by decide +kernel) (fun _ => rfl) (by decide +kernel)).mpr
    (Option.isNone_iff_eq_none.mp missing)

/-- With nothing left to download, it removes a record it does not have. -/
theorem not_departed_finished :
    Reachable .little .shipped leecherSeen [⟨.start, .sample 5 2⟩] ∧
      leecherSeen.Admitted .little .shipped (.sample 0 3) ∧
      (Arrival.sample 0 3).Normal ∧
      (Arrival.sample 0 3).event .little = some .stopped ∧
      ¬Departed .little .shipped
        ((Arrival.sample 0 3).announce .little).infoHash
        ((Arrival.sample 0 3).announce .little).peerId
        (leecherSeen.serve .little .shipped (.sample 0 3)).2 := by
  refine ⟨.serve .fresh _, by decide +kernel, fun _ => rfl, by decide +kernel, ?_⟩
  intro departed
  have present : ((leecherSeen.serve .little .shipped (.sample 0 3)).2.store.find?
      ((Arrival.sample 0 3).recordKey .little .shipped false)).isSome = true := by decide +kernel
  have missing := departed.gone false
  rw [Datagram.recordKey, Datagram.peerKeyName, missing] at present
  cases present

end BtTracker
