import BtTracker.Correctness.Update

/-!
# What a datagram leaves alone

The keys of different connections, peers and torrents are different texts, so a
request can only ever reach its own records.
-/

namespace BtTracker

open BtTracker.Foundation

variable (host : Host) (config : BtConfig) (world : World) (arrival : Arrival)

/-- What a datagram may change: an accepted connection request writes the key of
the identifier it returns, an admitted announce with a known event reaches the
two keys of its own peer and the counter of its own torrent, and everything else
leaves the database exactly as it was. -/
theorem serve_frame :
    (world.Connected host config arrival → ∃ connectionId,
      (world.serve host config arrival).2.sent = [(arrival.sender, connectionBlock host
        ⟨(arrival.request host).action, (arrival.request host).transactionId, connectionId⟩)] ∧
      ∀ key, key ≠ connectionKey host config connectionId →
        (world.serve host config arrival).2.store.find? key = world.store.find? key) ∧
    (world.Admitted host config arrival →
      (∀ key, key ≠ arrival.recordKey host config true →
        key ≠ arrival.recordKey host config false → key ≠ arrival.torrentKey host config →
          (world.serve host config arrival).2.store.find? key = world.store.find? key) ∧
      Redis.Store.SameBut (ascii "downs") (world.store.find? (arrival.torrentKey host config))
        ((world.serve host config arrival).2.store.find? (arrival.torrentKey host config)) ∧
      (∀ name, name ≠ arrival.peerKeyName host true → name ≠ arrival.peerKeyName host false →
        name ≠ .torrent (arrival.announce host).infoHash →
          (world.serve host config arrival).2.store.find? (name.encode host config) =
            world.store.find? (name.encode host config)) ∧
      (arrival.event host = none → (world.serve host config arrival).2.store = world.store)) ∧
    (¬world.Connected host config arrival → ¬world.Admitted host config arrival →
      (world.serve host config arrival).2.store = world.store) := by
  refine ⟨fun connected => ?_, fun admitted => ?_, world.store_serve_of_idle host config arrival⟩
  · obtain ⟨_, stored, sent⟩ := world.serve_of_connected host config arrival connected
    refine ⟨(world.issued host config arrival).1, sent, fun key other => ?_⟩
    rw [stored]
    rcases World.command_store (world.issued host config arrival).2
      (world.issueCommand host config arrival) with kept | executed
    · rw [kept, World.issued_store]
    · rw [executed, World.issued_store]
      exact world.store.find?_after_of_not_mem_writes
        (by simp [World.issueCommand, Redis.Command.writes, other])
  · have updates : arrival.Updates host config world.store
        (world.serve host config arrival).2.store := by
      rw [world.store_serve_of_admitted host config arrival admitted]
      exact world.updates_updated host config arrival admitted.accepted.1
    refine ⟨fun key => updates.find?_eq, updates.sameBut_torrentKey, ?_, updates.eq_of_unknown⟩
    intro name notSeeder notLeecher notTorrent
    exact updates.find?_eq (mt (KeyName.encode_inj host config).mp notSeeder)
      (mt (KeyName.encode_inj host config).mp notLeecher)
      (mt (KeyName.encode_inj host config).mp notTorrent)

end BtTracker
