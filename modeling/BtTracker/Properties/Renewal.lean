import BtTracker.Correctness.Reach

/-!
# Records of active peers

A peer stays in the swarm for a fixed time after its last announce, says the
configuration file.  An announce without an event, or with the first one, stores
a fresh record; a completion only moves the old record to another key, where it
keeps its counters and its deadline.
-/

namespace BtTracker

open BtTracker.Foundation

variable {host : Host} {config : BtConfig} {world : World} {history : List Served}
  {arrival : Arrival}

namespace Datagram

variable (host config) (datagram : Datagram)

/-- The record of an announce with the whole configured time left. -/
def renewal (padding : Octets 6) (moment : Nat) : Redis.Entry where
  value := .string ((datagram.record host padding).image host)
  expiresAt := some (moment + config.announcePeerTtl.toNat)

/-- The swarm holds the record of this announce, under either role. -/
def Renewed (store : Redis.Store) : Prop :=
  ∃ isSeeder padding, store.find? (datagram.recordKey host config isSeeder) =
    some (datagram.renewal host config padding store.now)

variable {host config datagram}

/-- As long as the configured time reads as a positive number, it is the time
Redis is given. -/
theorem entryAt_eq_renewal (positive : 0 < config.peerTtl) (padding : Octets 6) (moment : Nat) :
    datagram.entryAt host config padding moment =
      datagram.renewal host config padding moment := by
  have seconds : config.peerTtl.toNat = config.announcePeerTtl.toNat := by
    have bound := config.announcePeerTtl.isLt
    simp only [BtConfig.peerTtl, BitVec.toInt_eq_toNat_cond] at positive ⊢
    split at positive <;> omega
  rw [entryAt, renewal, seconds]

end Datagram

/-- Without a positive time to live there are no records. -/
theorem Reachable.find?_eq_none_of_ttl (reached : Reachable host config world history)
    (expired : ¬0 < config.peerTtl) (infoHash : Octets 20) (isSeeder : Bool)
    (peerId : Octets 20) :
    world.store.find? ((KeyName.peer infoHash isSeeder peerId).encode host config) = none := by
  by_contra present
  obtain ⟨entry, found⟩ := Option.ne_none_iff_exists'.mp present
  have notList : ¬(KeyName.peer infoHash isSeeder peerId).IsList := id
  obtain ⟨served, member, -, -, -, -, -, alive⟩ := reached.filed notList found
  have earlier := reached.past served member
  omega

/-- A completion renews nothing: the record is up to date only if it was before. -/
theorem renewed_of_completed (completed : arrival.event host = some .completed)
    (residue : Octets 6) (store : Redis.Store) :
    arrival.Renewed host config (arrival.update host config residue store) ↔
      ∃ padding, (store.find? (arrival.recordKey host config false)).or
          (store.find? (arrival.recordKey host config true)) =
        some (arrival.renewal host config padding store.now) := by
  obtain ⟨seeder, leecher⟩ := Datagram.find?_update_of_completed config completed store
  rw [Datagram.Renewed, Datagram.now_update, ← seeder]
  constructor
  · rintro ⟨isSeeder, padding, found⟩
    cases isSeeder with
    | true => exact ⟨padding, found⟩
    | false => cases leecher.symm.trans found
  · rintro ⟨padding, found⟩
    exact ⟨true, padding, found⟩

/-- A fresh record is stored as soon as Redis accepts its time to live. -/
theorem renewed_of_registers (reached : Reachable host config world history)
    (registers : arrival.Registers host) (residue : Octets 6) :
    arrival.Renewed host config (arrival.update host config residue world.store) ↔
      0 < config.peerTtl := by
  simp only [Datagram.Renewed, Datagram.now_update, Datagram.find?_update_of_registers registers]
  constructor
  · rintro ⟨isSeeder, padding, found⟩
    by_contra expired
    rw [if_neg fun written => expired written.1] at found
    have missing := reached.find?_eq_none_of_ttl expired (arrival.announce host).infoHash isSeeder
      (arrival.announce host).peerId
    cases missing.symm.trans found
  · intro positive
    refine ⟨arrival.isSeeder host, residue, ?_⟩
    rw [if_pos ⟨positive, rfl⟩, Datagram.entryAt_eq_renewal positive]

/-- An announce that is not the last one leaves the peer with its own data and
its full time exactly if it stores a record, or if it completes a download and
the record that is moved happens to be the same. -/
theorem renewed_iff (reached : Reachable host config world history)
    (admitted : world.Admitted host config arrival) (normal : arrival.Normal)
    (stays : arrival.Registers host ∨ arrival.event host = some .completed) :
    arrival.Renewed host config (world.serve host config arrival).2.store ↔
      (arrival.Registers host ∧ 0 < config.peerTtl) ∨
        (arrival.event host = some .completed ∧
          ∃ padding, (world.store.find? (arrival.recordKey host config false)).or
              (world.store.find? (arrival.recordKey host config true)) =
            some (arrival.renewal host config padding world.store.now)) := by
  rw [world.store_serve_of_admitted_normal host config arrival admitted normal]
  rcases stays with registers | completed
  · have notCompleted : arrival.event host ≠ some .completed := by
      rcases registers with event | event <;> simp [event]
    simp only [renewed_of_registers reached registers, registers, notCompleted, true_and,
      false_and, or_false]
  · have notRegisters : ¬arrival.Registers host := by simp [Datagram.Registers, completed]
    simp only [renewed_of_completed completed, completed, notRegisters, true_and, false_and,
      false_or]

/-- The first announce of a peer is stored with its full time to live. -/
theorem renewed_firstAnnounce : (Arrival.sample 5 2).Renewed .little .shipped
    (World.start.serve .little .shipped (.sample 5 2)).2.store := by
  have admitted : World.start.Admitted .little .shipped (.sample 5 2) := by decide +kernel
  have registers : (Arrival.sample 5 2).Registers .little := by decide +kernel
  exact (renewed_iff .fresh admitted (fun _ => rfl) (.inl registers)).mpr
    (.inl ⟨registers, by decide⟩)

/-- A leecher that announced itself one hundred seconds ago. -/
def leecherWaiting : World :=
  let seen := (World.start.serve .little .shipped (.sample 5 2)).2
  { seen with store := seen.store.advance 100 }

/-- Its completion leaves it with 1820 of the 1920 seconds. -/
theorem not_renewed_completion :
    Reachable .little .shipped leecherWaiting [⟨.start, .sample 5 2⟩] ∧
      leecherWaiting.Admitted .little .shipped (.sample 0 1) ∧
      (Arrival.sample 0 1).Normal ∧
      (Arrival.sample 0 1).event .little = some .completed ∧
      ¬(Arrival.sample 0 1).Renewed .little .shipped
        (leecherWaiting.serve .little .shipped (.sample 0 1)).2.store := by
  refine ⟨.wait (.serve .fresh _) 100, by decide +kernel, fun _ => rfl, by decide +kernel, ?_⟩
  rintro ⟨isSeeder, padding, found⟩
  have deadline := congrArg (Option.bind · Redis.Entry.expiresAt) found
  simp only [Option.bind_some, Datagram.renewal] at deadline
  revert deadline
  cases isSeeder <;> decide +kernel

end BtTracker
