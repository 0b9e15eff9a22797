import BtTracker.Correctness.Reach
import BtTracker.Properties.Downloads
import BtTracker.Properties.Selection
import BtTracker.Properties.Survival

/-!
# Peers find each other

What the tracker is for: a peer that has announced itself is among the peers that
others of its torrent are given, as long as its record lasts.  Between the two
announces anything may happen that is not an announce of the first peer.
-/

namespace BtTracker

open BtTracker.Foundation

variable {host : Host} {config : BtConfig} {origin middle world : World}
  {history earlier later : List Served}

/-- One run after the other. -/
theorem Run.trans (first : Run host config origin middle earlier)
    (second : Run host config middle world later) :
    Run host config origin world (later ++ earlier) := by
  induction second with
  | start => exact first
  | serve run arrival ih => exact ih.serve arrival
  | rest run seconds next clock others ih => exact ih.rest seconds next clock others

theorem Run.now_le (run : Run host config origin world later) :
    origin.store.now ≤ world.store.now := by
  induction run with
  | start => exact Nat.le_refl _
  | serve run arrival ih =>
      rw [World.now_serve]
      exact ih
  | rest run seconds next clock others ih => omega

/-- A datagram about somebody else leaves the record of a peer alone. -/
theorem World.find?_serve_of_other {arrival : Arrival} {infoHash peerId : Octets 20}
    (other : world.Admitted host config arrival →
      Datagram.isFrom host infoHash peerId arrival.toDatagram = false) (isSeeder : Bool) :
    (world.serve host config arrival).2.store.find?
        ((KeyName.peer infoHash isSeeder peerId).encode host config) =
      world.store.find? ((KeyName.peer infoHash isSeeder peerId).encode host config) := by
  rcases world.records_serve_cases host config arrival with ⟨admitted, updates⟩ | same
  · have different (role : Bool) : (KeyName.peer infoHash isSeeder peerId).encode host config ≠
        arrival.recordKey host config role := by
      intro equal
      injection (KeyName.encode_inj host config).mp equal with hash _ peer
      have mine : Datagram.isFrom host infoHash peerId arrival.toDatagram = true := by
        simp [Datagram.isFrom, Datagram.isFor, hash, peer]
      rw [other admitted] at mine
      cases mine
    apply updates.find?_eq (different true) (different false)
    intro equal
    cases (KeyName.encode_inj host config).mp equal
  · exact same infoHash isSeeder peerId

/-- The record of a peer survives a run without announces of that peer, until its
time is up. -/
theorem Run.find?_record (run : Run host config origin world later) {infoHash peerId : Octets 20}
    {isSeeder : Bool} {value : Redis.Value} {deadline : Nat}
    (found : origin.store.find? ((KeyName.peer infoHash isSeeder peerId).encode host config) =
      some ⟨value, some deadline⟩)
    (others : ∀ served ∈ later, served.world.Admitted host config served.arrival →
      Datagram.isFrom host infoHash peerId served.arrival.toDatagram = false)
    (soon : world.store.now < deadline) :
    world.store.find? ((KeyName.peer infoHash isSeeder peerId).encode host config) =
      some ⟨value, some deadline⟩ := by
  induction run with
  | start => exact found
  | serve run arrival ih =>
      rw [World.now_serve] at soon
      rw [World.find?_serve_of_other (others _ (List.mem_cons_self ..))]
      exact ih (fun served member => others served (List.mem_cons_of_mem _ member)) soon
  | @rest world history run seconds next clock elsewhere ih =>
      have notList : ¬(KeyName.peer infoHash isSeeder peerId).IsList := id
      have kept := ih others (by omega)
      rw [elsewhere _ (KeyName.encode_ne_lists notList).1 (KeyName.encode_ne_lists notList).2,
        Redis.Store.find?_advance, kept]
      have alive : world.store.now + seconds < deadline := by omega
      simp [Option.filter, Redis.Entry.aliveAt, alive]

/-- A peer that announced itself, and nothing but others since. -/
structure Introduced (host : Host) (config : BtConfig) (before : World) (first : Arrival)
    (world : World) (later : List Served) : Prop where
  admitted : before.Admitted host config first
  normal : first.Normal
  registers : first.Registers host
  run : Run host config (before.serve host config first).2 world later
  others : ∀ served ∈ later, served.world.Admitted host config served.arrival →
    Datagram.isFrom host (first.announce host).infoHash (first.announce host).peerId
      served.arrival.toDatagram = false
  soon : world.store.now < before.store.now + config.peerTtl.toNat

/-- Its record is still what the announce said. -/
theorem Introduced.find?_record {before : World} {first : Arrival}
    (introduced : Introduced host config before first world later) :
    world.store.find? (first.recordKey host config (first.isSeeder host)) =
      some (first.entryAt host config (before.residue host config first) before.store.now) := by
  have started := introduced.run.now_le
  rw [World.now_serve] at started
  have soon := introduced.soon
  have lasting : 0 < config.peerTtl := by omega
  apply introduced.run.find?_record _ introduced.others soon
  change (before.serve host config first).2.store.find?
    (first.recordKey host config (first.isSeeder host)) = _
  rw [before.store_serve_of_admitted_normal host config first introduced.admitted
    introduced.normal, Datagram.find?_update_of_registers introduced.registers,
    if_pos ⟨lasting, rfl⟩]
  rfl

/-- Whoever asks for as many peers as the swarm has, in time and while Redis answers,
is given the address that the other one announced. -/
theorem Reachable.discovers {before : World} {first second : Arrival}
    (reached : Reachable host config before history) (plain : config.Plain)
    (introduced : Introduced host config before first world later)
    (admitted : world.Admitted host config second) (normal : second.Normal)
    (sameTorrent : (second.announce host).infoHash = (first.announce host).infoHash)
    (otherPeer : (second.announce host).peerId ≠ (first.announce host).peerId)
    (draws : world.DrawsWell host config second)
    (enough : (second.oppositeKeys host config (world.serve host config second).2.store).length +
        (second.siblingKeys host config (world.serve host config second).2.store).length ≤
      second.wanted host config) :
    ∃ peers, (world.serve host config second).2.sent =
        [(second.sender,
          second.answerBlock host config (world.serve host config second).2.store peers)] ∧
      let record := first.record host (before.residue host config first)
      btNewPeerAddr record.ipv4Addr record.port ∈ peers := by
  have last : Reachable host config (world.serve host config second).2
      (⟨world, second⟩ :: (later ++ ⟨before, first⟩ :: history)) := by
    obtain ⟨origin, empty, run⟩ := reached
    exact ⟨origin, empty, ((run.serve first).trans introduced.run).serve second⟩
  have stored := world.store_serve_of_admitted_normal host config second admitted normal
  have recorded (isSeeder : Bool) :=
    last.recorded plain (second.announce host).infoHash isSeeder
  rw [stored] at recorded enough ⊢
  obtain ⟨peers, complement, sent, others, siblings⟩ :=
    World.sent_of_recorded admitted normal rfl recorded draws
  refine ⟨peers ++ complement, sent, ?_⟩
  -- The second announce does not touch the record of the first peer.
  have other : world.Admitted host config second → Datagram.isFrom host
      (first.announce host).infoHash (first.announce host).peerId second.toDatagram = false := by
    intro _
    simp [Datagram.isFrom, otherPeer]
  have found : (second.update host config (world.residue host config second) world.store).find?
      (first.recordKey host config (first.isSeeder host)) =
        some (first.entryAt host config (before.residue host config first) before.store.now) := by
    rw [← stored, ← introduced.find?_record]
    exact World.find?_serve_of_other other _
  have listed : first.recordKey host config (first.isSeeder host) ∈ second.swarmKeys host config
      (second.update host config (world.residue host config second) world.store)
      (first.isSeeder host) := by
    rw [Datagram.swarmKeys, sameTorrent, ← stored]
    apply (last.mem_listed plain).mpr
    refine ⟨(first.announce host).peerId, ?_, rfl⟩
    rw [stored]
    intro missing
    have gone := found.symm.trans missing
    cases gone
  have address : recordedAddr host ((second.update host config
      (world.residue host config second) world.store).find?
        (first.recordKey host config (first.isSeeder host))) =
      some (btNewPeerAddr (first.record host (before.residue host config first)).ipv4Addr
        (first.record host (before.residue host config first)).port) := by
    rw [found]
    exact recordedAddr_image ..
  rw [List.mem_append]
  rw [Nat.min_eq_right (by omega)] at others siblings
  by_cases opposite : first.isSeeder host = !second.isSeeder host
  · rw [opposite] at listed
    obtain ⟨addr, member, read⟩ := others.complete _ listed
    rw [← opposite, address] at read
    cases read
    exact .inl member
  · have sibling : first.isSeeder host = second.isSeeder host := by
      revert opposite
      cases first.isSeeder host <;> cases second.isSeeder host <;> simp
    rw [sibling] at listed
    obtain ⟨addr, member, read⟩ := siblings.complete _ listed
    rw [← sibling, address] at read
    cases read
    exact .inr member

/-- Half an hour after the seeder of the sample torrent was seen. -/
def halfHourLater : World :=
  { seederSeen with store := seederSeen.store.advance 1800 }

/-- A leecher that comes half an hour later is given the address of the seeder. -/
theorem discovers_seeder : ∃ peers,
    (halfHourLater.serve .little .shipped (.sample 5 2)).2.sent =
      [((Arrival.sample 5 2).sender, (Arrival.sample 5 2).answerBlock .little .shipped
        (halfHourLater.serve .little .shipped (.sample 5 2)).2.store peers)] ∧
    ⟨0x0a000002, 6881⟩ ∈ peers := by
  have run : Run .little .shipped seederSeen halfHourLater [] :=
    .rest .start 1800 halfHourLater (Redis.Store.now_advance ..) fun _ _ _ => by
      rw [halfHourLater]
  have introduced : Introduced .little .shipped .start sampleSeeder halfHourLater [] := {
    admitted := by decide +kernel
    normal := fun _ => rfl
    registers := by decide +kernel
    run := run
    others := nofun
    soon := by decide +kernel }
  have admitted : halfHourLater.Admitted .little .shipped (.sample 5 2) := by decide +kernel
  have sizes : ((Arrival.sample 5 2).oppositeKeys .little .shipped
        (halfHourLater.serve .little .shipped (.sample 5 2)).2.store).length = 1 ∧
      ((Arrival.sample 5 2).siblingKeys .little .shipped
        (halfHourLater.serve .little .shipped (.sample 5 2)).2.store).length = 1 ∧
      (Arrival.sample 5 2).wanted .little .shipped = 50 := by decide +kernel
  have drawn := halfHourLater.choices_updated .little .shipped (.sample 5 2)
    (fun choice => choice.random.val ≠ randMax) fun _ => nofun
  have normal : (Arrival.sample 5 2).Normal := fun _ => rfl
  have draws : halfHourLater.DrawsWell .little .shipped (.sample 5 2) := by
    rw [halfHourLater.store_serve_of_admitted_normal .little .shipped _ admitted normal] at sizes
    exact .of_ne_randMax (by omega) (by omega) drawn
  have recorded : btNewPeerAddr (sampleSeeder.record .little fun _ => 0).ipv4Addr
      (sampleSeeder.record .little fun _ => 0).port = ⟨0x0a000002, 6881⟩ := by
    decide +kernel
  obtain ⟨peers, sent, listed⟩ := Reachable.discovers .fresh (by decide +kernel) introduced
    admitted normal (by decide +kernel) (by decide +kernel) draws (by omega)
  rw [World.residue_of_choices .little .shipped _ _ fun _ => rfl] at listed
  exact ⟨peers, sent, recorded ▸ listed⟩

end BtTracker
