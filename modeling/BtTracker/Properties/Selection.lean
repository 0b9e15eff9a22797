import BtTracker.Correctness.PeerLists

/-!
# Which peers an announce gets

A leecher is given seeders and a seeder is given leechers, as many as it asks for
and the configuration allows.  Only when there are not enough of them do peers of
its own role fill the gap.
-/

namespace BtTracker

open BtTracker.Foundation

variable {host : Host} {config : BtConfig} {world : World} {arrival : Arrival}

/-- Unless the prefix of the tracker has a meaning in a pattern, the keys of a
swarm are those that start in the right way. -/
theorem Datagram.mem_swarmKeys (plain : config.Plain) {datagram : Datagram} {store : Redis.Store}
    {isSeeder : Bool} {key : Bytes} :
    key ∈ datagram.swarmKeys host config store isSeeder ↔ store.find? key ≠ none ∧
      swarmPrefix config (infoHashText (datagram.announce host).infoHash) isSeeder <+: key := by
  rw [swarmKeys, roleKeys, List.mem_filter, Redis.Store.mem_keys, ← Option.ne_none_iff_exists',
    swarmPattern, Glob.isMatch_literals_star _ _ (plain.swarmPrefix _ isSeeder)]

/-- The peers of the opposite role and the siblings in an answer. -/
structure Selects (host : Host) (store : Redis.Store) (opposite own : List Bytes) (wanted : Nat)
    (peers complement : List BtPeerAddr) : Prop where
  others : Picked host store opposite (min wanted opposite.length) peers
  siblings : Picked host store own (min (wanted - min wanted opposite.length) own.length) complement
  fills : complement ≠ [] → ∀ key ∈ opposite,
    ∃ addr ∈ peers, recordedAddr host (store.find? key) = some addr

/-- As many different keys as there are, are all of them. -/
theorem Picked.complete {store : Redis.Store} {keys : List Bytes} {addrs : List BtPeerAddr}
    (picked : Picked host store keys keys.length addrs) :
    ∀ key ∈ keys, ∃ addr ∈ addrs, recordedAddr host (store.find? key) = some addr := by
  obtain ⟨chosen, different, subset, counted, stored⟩ := picked
  have all : chosen.Perm keys :=
    (different.subperm subset).perm_of_length_le (Nat.le_of_eq counted.symm)
  intro key member
  have read : recordedAddr host (store.find? key) ∈ addrs.map some := by
    rw [← stored]
    exact List.mem_map.mpr ⟨key, all.mem_iff.mpr member, rfl⟩
  obtain ⟨addr, listed, found⟩ := List.mem_map.mp read
  exact ⟨addr, listed, found.symm⟩

theorem Selects.of_picked {store : Redis.Store} {opposite own : List Bytes} {wanted : Nat}
    {peers complement : List BtPeerAddr}
    (others : Picked host store opposite (min wanted opposite.length) peers)
    (siblings : Picked host store own (min (wanted - min wanted opposite.length) own.length)
      complement) : Selects host store opposite own wanted peers complement := by
  refine ⟨others, siblings, fun nonempty => ?_⟩
  have filled := List.length_pos_iff.mpr nonempty
  rw [siblings.length_eq] at filled
  have whole : min wanted opposite.length = opposite.length := by omega
  rw [whole] at others
  exact others.complete

/-- While Redis answers normally, an announce that is admitted is answered with
the peers it is entitled to, whatever order they are listed in and however they
are shuffled. -/
theorem World.serve_selects {store : Redis.Store} (admitted : world.Admitted host config arrival)
    (normal : arrival.Normal)
    (stored : arrival.update host config (world.residue host config arrival) world.store = store)
    (recorded : ∀ isSeeder, Recorded host store (arrival.swarmKeys host config store isSeeder))
    (draws : (world.updated host config arrival).2.DrawsWithin
      (arrival.oppositeKeys host config store) (arrival.siblingKeys host config store)
      (arrival.wanted host config)) :
    (∃ peers complement,
      (world.serve host config arrival).2.sent =
          [(arrival.sender, arrival.answerBlock host config store (peers ++ complement))] ∧
        Selects host store (arrival.oppositeKeys host config store)
          (arrival.siblingKeys host config store) (arrival.wanted host config) peers complement) ∧
    (config.Plain → ∀ isSeeder key, key ∈ arrival.swarmKeys host config store isSeeder ↔
      store.find? key ≠ none ∧
        swarmPrefix config (infoHashText (arrival.announce host).infoHash) isSeeder <+: key) := by
  constructor
  · obtain ⟨peers, complement, sent, others, siblings⟩ :=
      sent_of_recorded admitted normal stored recorded draws
    exact ⟨peers, complement, sent, .of_picked others siblings⟩
  · exact fun plain isSeeder key => Datagram.mem_swarmKeys plain

/-- A seeder of the sample torrent. -/
def sampleSeeder : Arrival := .calm ⟨6881, 0x0200000a⟩
  { BtAnnounceReq.sample 0 2 with peerId := fun _ => 66 }.datagram

/-- A tracker to which that seeder just announced itself. -/
def seederSeen : World := (World.start.serve .little .shipped sampleSeeder).2

/-- Its database once a leecher has announced itself as well. -/
def sampleSwarm : Redis.Store :=
  (Arrival.sample 5 2).update .little .shipped (fun _ => 0) seederSeen.store

/-- The leecher gets the seeder and itself. -/
theorem serve_selects_sample :
    ∃ peers complement, (seederSeen.serve .little .shipped (.sample 5 2)).2.sent =
        [((Arrival.sample 5 2).sender, (Arrival.sample 5 2).answerBlock .little .shipped
          sampleSwarm (peers ++ complement))] ∧
      peers.length = 1 ∧ complement.length = 1 := by
  have admitted : seederSeen.Admitted .little .shipped (.sample 5 2) := by decide +kernel
  have normal : (Arrival.sample 5 2).Normal := fun _ => rfl
  have seeders : ((Arrival.sample 5 2).oppositeKeys .little .shipped sampleSwarm).length = 1 := by
    decide +kernel
  have leechers : ((Arrival.sample 5 2).siblingKeys .little .shipped sampleSwarm).length = 1 := by
    decide +kernel
  have wanted : (Arrival.sample 5 2).wanted .little .shipped = 50 := by decide +kernel
  have reached : Reachable .little .shipped (seederSeen.serve .little .shipped (.sample 5 2)).2 _ :=
    .serve (.serve .fresh sampleSeeder) (.sample 5 2)
  have recorded (isSeeder : Bool) := reached.recorded (by decide +kernel)
    ((Arrival.sample 5 2).announce .little).infoHash isSeeder
  have left : seederSeen.residue .little .shipped (.sample 5 2) = fun _ => 0 :=
    World.residue_of_choices .little .shipped _ _ fun _ => rfl
  rw [seederSeen.store_serve_of_admitted_normal .little .shipped _ admitted normal, left] at recorded
  have drawn := seederSeen.choices_updated .little .shipped (.sample 5 2)
    (fun choice => choice.random.val ≠ randMax) fun _ => nofun
  have draws : (seederSeen.updated .little .shipped (.sample 5 2)).2.DrawsWithin
      ((Arrival.sample 5 2).oppositeKeys .little .shipped sampleSwarm)
      ((Arrival.sample 5 2).siblingKeys .little .shipped sampleSwarm)
      ((Arrival.sample 5 2).wanted .little .shipped) :=
    .of_ne_randMax (by omega) (by omega) drawn
  have stored : (Arrival.sample 5 2).update .little .shipped
      (seederSeen.residue .little .shipped (.sample 5 2)) seederSeen.store = sampleSwarm := by
    rw [left]
    rfl
  obtain ⟨⟨peers, complement, sent, selects⟩, -⟩ :=
    World.serve_selects admitted normal stored recorded draws
  refine ⟨peers, complement, sent, ?_, ?_⟩
  · rw [selects.others.length_eq, seeders, wanted]
    rfl
  · rw [selects.siblings.length_eq, seeders, leechers, wanted]
    rfl

end BtTracker
