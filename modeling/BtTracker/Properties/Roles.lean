import BtTracker.Correctness.Swarm

/-!
# Seeders and leechers

A peer is filed under the role its packet suggests, and nothing looks for a
record under the other role.  As long as no announce arrives whose peer is filed
under the other role, every peer has one role, and the statistics count it
once.
-/

namespace BtTracker

open BtTracker.Foundation

variable {host : Host} {config : BtConfig} {world : World} {history : List Served}

/-- No peer is filed under two roles for one torrent. -/
def OneRole (host : Host) (config : BtConfig) (store : Redis.Store) : Prop :=
  ∀ infoHash peerId,
    store.find? ((KeyName.peer infoHash true peerId).encode host config) = none ∨
      store.find? ((KeyName.peer infoHash false peerId).encode host config) = none

/-- An announce that files a peer finds no record of it under the other role. -/
def Served.Orderly (host : Host) (config : BtConfig) (served : Served) : Prop :=
  served.world.Admitted host config served.arrival → served.arrival.Registers host →
    served.world.store.find?
      (served.arrival.recordKey host config (!served.arrival.isSeeder host)) = none

instance (served : Served) : Decidable (served.Orderly host config) :=
  decidable_of_iff
    (served.world.Admitted host config served.arrival → served.arrival.Registers host →
      (served.world.store.find?
        (served.arrival.recordKey host config (!served.arrival.isSeeder host))).isNone = true)
    (by simp only [Served.Orderly, Option.isNone_iff_eq_none])

/-- All the peers of a torrent. -/
def participants (host : Host) (config : BtConfig) (store : Redis.Store)
    (infoHash : Octets 20) : Set (Octets 20) :=
  swarm host config store infoHash true ∪ swarm host config store infoHash false

namespace OneRole

private theorem find?_promoted_leecher (datagram : Datagram) (store : Redis.Store) :
    (store.after (datagram.promoteCommand host config)).find?
      (datagram.recordKey host config false) = none := by
  rw [Datagram.promoteCommand]
  cases found : store.find? (datagram.recordKey host config false) with
  | none => rw [Redis.Store.after_rename_of_none _ found, found]
  | some entry =>
      rw [Redis.Store.find?_after_rename _ _ found, if_neg (by simp), if_pos rfl]

/-- The peer of the announce itself. -/
private theorem recordKey {datagram : Datagram} {store after : Redis.Store}
    (oneRole : OneRole host config store) (updates : datagram.Updates host config store after)
    (orderly : datagram.Registers host →
      store.find? (datagram.recordKey host config (!datagram.isSeeder host)) = none) :
    after.find? (datagram.recordKey host config true) = none ∨
      after.find? (datagram.recordKey host config false) = none := by
  have either (isSeeder : Bool)
      (missing : after.find? (datagram.recordKey host config isSeeder) = none) :
      after.find? (datagram.recordKey host config true) = none ∨
        after.find? (datagram.recordKey host config false) = none := by
    cases isSeeder with
    | true => exact .inl missing
    | false => exact .inr missing
  cases updates with
  | kept => exact oneRole _ _
  | inserted registers =>
      refine either (!datagram.isSeeder host) ?_
      rw [Datagram.insertCommand, Redis.Store.find?_after_setex, if_neg (by simp)]
      exact orderly registers
  | removed stopped =>
      refine either (datagram.isSeeder host) ?_
      rw [Datagram.removeCommand, Redis.Store.find?_after_del, if_pos rfl]
  | promoted completed => exact .inr (find?_promoted_leecher datagram store)
  | counted completed found =>
      refine .inr ?_
      rw [Redis.Store.find?_after_of_not_mem_writes _ (by
        simp [Datagram.countCommand, Redis.Command.writes,
          (Datagram.torrentKey_ne_recordKey _).symm])]
      exact find?_promoted_leecher datagram store

/-- One announce. -/
theorem updates {datagram : Datagram} {store after : Redis.Store}
    (oneRole : OneRole host config store) (updates : datagram.Updates host config store after)
    (orderly : datagram.Registers host →
      store.find? (datagram.recordKey host config (!datagram.isSeeder host)) = none) :
    OneRole host config after := by
  intro infoHash peerId
  by_cases own : infoHash = (datagram.announce host).infoHash ∧
      peerId = (datagram.announce host).peerId
  · obtain ⟨rfl, rfl⟩ := own
    exact recordKey oneRole updates orderly
  · have other (isSeeder role : Bool) :
        (KeyName.peer infoHash isSeeder peerId).encode host config ≠
          datagram.recordKey host config role := by
      rw [Datagram.recordKey, Ne, KeyName.encode_inj]
      intro same
      cases same
      exact own ⟨rfl, rfl⟩
    have unrelated (isSeeder : Bool) :
        (KeyName.peer infoHash isSeeder peerId).encode host config ≠
          datagram.torrentKey host config := by
      rw [Datagram.torrentKey, Ne, KeyName.encode_inj]
      exact KeyName.noConfusion
    rw [updates.find?_eq (other true true) (other true false) (unrelated true),
      updates.find?_eq (other false true) (other false false) (unrelated false)]
    exact oneRole infoHash peerId

/-- One datagram. -/
theorem serve {arrival : Arrival} (oneRole : OneRole host config world.store)
    (orderly : Served.Orderly host config ⟨world, arrival⟩) :
    OneRole host config (world.serve host config arrival).2.store := by
  rcases world.records_serve_cases host config arrival with ⟨admitted, updates⟩ | kept
  · exact oneRole.updates updates (orderly admitted)
  · intro infoHash peerId
    rw [kept, kept]
    exact oneRole infoHash peerId

/-- Peers with one role are counted once. -/
theorem ncard_participants (oneRole : OneRole host config world.store) (infoHash : Octets 20) :
    (participants host config world.store infoHash).ncard =
      (swarm host config world.store infoHash true).ncard +
        (swarm host config world.store infoHash false).ncard := by
  have disjoint : Disjoint (swarm host config world.store infoHash true)
      (swarm host config world.store infoHash false) := by
    rw [Set.disjoint_left]
    intro peerId seeder leecher
    exact (oneRole infoHash peerId).elim seeder leecher
  exact Set.ncard_union_eq disjoint (finite_swarm ..) (finite_swarm ..)

/-- A whole run. -/
theorem run (reached : Reachable host config world history)
    (orderly : ∀ served ∈ history, served.Orderly host config) :
    OneRole host config world.store := by
  obtain ⟨origin, empty, run⟩ := reached
  induction run with
  | start => exact fun _ _ => .inl (empty _)
  | serve run arrival ih =>
      have before := ih fun served member => orderly served (List.mem_cons_of_mem _ member)
      exact before.serve (orderly _ (List.mem_cons_self ..))
  | rest run seconds next clock others ih =>
      intro infoHash peerId
      rcases ih orderly infoHash peerId with missing | missing
      · exact .inl (Run.missing_of_rest clock others (fun list => list) missing)
      · exact .inr (Run.missing_of_rest clock others (fun list => list) missing)

end OneRole

/-- In a run in which no announce files a peer under a second role, every peer has
at most one record per torrent, and `bt_get_torrent_stats` counts it once. -/
theorem Reachable.oneRole (reached : Reachable host config world history)
    (orderly : ∀ served ∈ history, served.Orderly host config) :
    OneRole host config world.store ∧
      (config.Plain → ∀ reader : World, reader.Normal → reader.store = world.store →
        ∀ (redis : Context) (infoHash : Octets 20) (stats : BtTorrentStats),
          ∃ seeders downloads leechers,
            (reader.run (btGetTorrentStats (some redis) config (infoHashText infoHash) stats)).1 =
                .ok ⟨some seeders, some downloads, some leechers⟩ ∧
              seeders + leechers =
                BitVec.ofNat 32 (participants host config world.store infoHash).ncard) := by
  have oneRole := OneRole.run reached orderly
  refine ⟨oneRole, fun plain reader normal same redis infoHash stats => ?_⟩
  refine ⟨_, _, _, normal.run_btGetTorrentStats redis _ stats, ?_⟩
  rw [same, reached.allNamed.length_listed plain, reached.allNamed.length_listed plain,
    ← BitVec.ofNat_add, oneRole.ncard_participants]

/-- A leecher starts and completes its download, another peer starts as a seeder,
and the first one announces itself again, now a seeder as well. -/
def completedDownload : World × List Served :=
  World.start.serveAll .little .shipped [] [.sample 5 2, .sample 0 1,
    .calm ⟨6881, 0x0200000a⟩ { BtAnnounceReq.sample 0 2 with peerId := fun _ => 66 }.datagram,
    .sample 0 0]

/-- Each of the two peers is a seeder, and counted once. -/
theorem oneRole_completedDownload :
    OneRole .little .shipped completedDownload.1.store ∧
      BitVec.ofNat 32 (participants .little .shipped completedDownload.1.store
        ((Arrival.sample 5 2).announce .little).infoHash).ncard = 2 := by
  have reached : Reachable .little .shipped completedDownload.1 completedDownload.2 :=
    Reachable.fresh.serveAll _
  have orderly : ∀ served ∈ completedDownload.2, served.Orderly .little .shipped := by
    decide +kernel
  obtain ⟨oneRole, counts⟩ := Reachable.oneRole reached orderly
  have reads (store : Redis.Store) : ∃ reader : World, reader.Normal ∧ reader.store = store :=
    ⟨{ World.start with store := store }, fun _ => rfl, rfl⟩
  obtain ⟨reader, normal, same⟩ := reads completedDownload.1.store
  obtain ⟨seeders, downloads, leechers, told, total⟩ := counts (by decide +kernel)
    reader normal same 0 ((Arrival.sample 5 2).announce .little).infoHash .unassigned
  have read : torrentStats .shipped completedDownload.1.store
      (infoHashText ((Arrival.sample 5 2).announce .little).infoHash) =
        ⟨some 2, some 1, some 0⟩ := by
    decide +kernel
  rw [normal.run_btGetTorrentStats, same, read] at told
  cases told
  exact ⟨oneRole, total.symm⟩

/-- A leecher that announces itself as a seeder, without the event that promotes
it, has two records. -/
theorem not_oneRole_twoAnnounces :
    Reachable .little .shipped
        ((World.start.serve .little .shipped (.sample 5 2)).2.serve .little .shipped (.sample 0 0)).2
        [⟨(World.start.serve .little .shipped (.sample 5 2)).2, .sample 0 0⟩,
          ⟨.start, .sample 5 2⟩] ∧
      ¬OneRole .little .shipped
        ((World.start.serve .little .shipped (.sample 5 2)).2.serve .little .shipped
          (.sample 0 0)).2.store := by
  refine ⟨.serve (.serve .fresh _) _, fun oneRole => ?_⟩
  have present (isSeeder : Bool) :
      (((World.start.serve .little .shipped (.sample 5 2)).2.serve .little .shipped
        (.sample 0 0)).2.store.find?
          ((Arrival.sample 0 0).recordKey .little .shipped isSeeder)).isSome = true := by
    cases isSeeder <;> decide +kernel
  rcases oneRole ((Arrival.sample 0 0).announce .little).infoHash
    ((Arrival.sample 0 0).announce .little).peerId with missing | missing
  · have found := present true
    rw [Datagram.recordKey, Datagram.peerKeyName, missing] at found
    cases found
  · have found := present false
    rw [Datagram.recordKey, Datagram.peerKeyName, missing] at found
    cases found

end BtTracker
