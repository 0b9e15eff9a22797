import BtTracker.Correctness.Reach
import Mathlib.Data.Set.Card

/-!
# Swarms

What the database holds of a torrent, as sets of peers.  A listing of the keys
of a swarm names every peer of the set once and nothing else, provided the
prefix of the tracker has no meaning in a pattern, so the statistics count what
the sets hold.
-/

namespace BtTracker

open BtTracker.Foundation

variable {host : Host} {config : BtConfig} {world : World} {history : List Served}

/-- The pattern that lists the seeders or the leechers of a torrent. -/
def swarmPattern (config : BtConfig) (infoHashStr : Bytes) (isSeeder : Bool) : Bytes :=
  swarmPrefix config infoHashStr isSeeder ++ ascii "*"

/-- The peers filed for a torrent under a role. -/
def swarm (host : Host) (config : BtConfig) (store : Redis.Store) (infoHash : Octets 20)
    (isSeeder : Bool) : Set (Octets 20) :=
  {peerId | store.find? ((KeyName.peer infoHash isSeeder peerId).encode host config) ≠ none}

/-- There are only so many peer identifiers. -/
theorem finite_swarm (store : Redis.Store) (infoHash : Octets 20) (isSeeder : Bool) :
    (swarm host config store infoHash isSeeder).Finite := by
  have bytes : Finite Byte := Finite.of_injective BitVec.toFin fun _ _ => BitVec.eq_of_toFin_eq
  exact Set.toFinite _

/-! ## Listings -/

/-- Every key of the database is one of the grammar. -/
def Named (host : Host) (config : BtConfig) (store : Redis.Store) : Prop :=
  ∀ ⦃key entry⦄, store.find? key = some entry → ∃ name : KeyName, key = name.encode host config

namespace Named

variable {store : Redis.Store}

theorem mem_listed (named : Named host config store) (plain : config.Plain)
    {infoHash : Octets 20} {isSeeder : Bool} {key : Bytes} :
    key ∈ store.keys.filter
        (Glob.isMatch (swarmPattern config (infoHashText infoHash) isSeeder)) ↔
      ∃ peerId ∈ swarm host config store infoHash isSeeder,
        (KeyName.peer infoHash isSeeder peerId).encode host config = key := by
  rw [List.mem_filter, Redis.Store.mem_keys]
  constructor
  · rintro ⟨⟨entry, found⟩, accepted⟩
    obtain ⟨name, rfl⟩ := named found
    obtain ⟨peerId, rfl⟩ := (plain.isMatch_encode host).mp accepted
    exact ⟨peerId, by simp [swarm, found], rfl⟩
  · rintro ⟨peerId, present, rfl⟩
    exact ⟨Option.ne_none_iff_exists'.mp present, (plain.isMatch_encode host).mpr ⟨peerId, rfl⟩⟩

/-- A listing is as long as the swarm is large. -/
theorem length_listed (named : Named host config store) (plain : config.Plain)
    (infoHash : Octets 20) (isSeeder : Bool) :
    (store.keys.filter
        (Glob.isMatch (swarmPattern config (infoHashText infoHash) isSeeder))).length =
      (swarm host config store infoHash isSeeder).ncard := by
  have filed : Function.Injective fun peerId =>
      (KeyName.peer infoHash isSeeder peerId).encode host config := by
    intro left right equal
    cases KeyName.encode_injective host config equal
    rfl
  have listed : (fun peerId => (KeyName.peer infoHash isSeeder peerId).encode host config) ''
      swarm host config store infoHash isSeeder =
        ((store.keys.filter
          (Glob.isMatch (swarmPattern config (infoHashText infoHash) isSeeder))).toFinset :
            Set Bytes) := by
    ext key
    rw [List.coe_toFinset]
    exact (named.mem_listed plain).symm
  rw [← Set.ncard_image_of_injective _ filed, listed, Set.ncard_coe_finset,
    List.toFinset_card_of_nodup (store.nodup_keys.filter _)]

end Named

namespace Reachable

theorem allNamed (reached : Reachable host config world history) :
    Named host config world.store :=
  fun _ _ found => reached.named found

theorem mem_listed (reached : Reachable host config world history) (plain : config.Plain)
    {infoHash : Octets 20} {isSeeder : Bool} {key : Bytes} :
    key ∈ world.store.keys.filter
        (Glob.isMatch (swarmPattern config (infoHashText infoHash) isSeeder)) ↔
      ∃ peerId ∈ swarm host config world.store infoHash isSeeder,
        (KeyName.peer infoHash isSeeder peerId).encode host config = key :=
  reached.allNamed.mem_listed plain

end Reachable

/-! ## Statistics -/

/-- The counters a normal answer of the database yields. -/
def torrentStats (config : BtConfig) (store : Redis.Store) (infoHashStr : Bytes) :
    BtTorrentStats where
  seeders := some (BitVec.ofNat 32
    (store.keys.filter (Glob.isMatch (swarmPattern config infoHashStr true))).length)
  downloads := some (((store.exec .sorted
    (.hget (infoHashKey config infoHashStr) (ascii "downs"))).1.str).elim 0 fun text =>
      BitVec.ofInt 32 (Decimal.strtoimax (cString text)))
  leechers := some (BitVec.ofNat 32
    (store.keys.filter (Glob.isMatch (swarmPattern config infoHashStr false))).length)

/-- However the server orders a listing, it has the same length. -/
private theorem length_elements_exec_keys (store : Redis.Store) (listing : Redis.Listing)
    (pattern : Bytes) :
    (store.exec listing (.keys pattern)).1.elements.length =
      (store.keys.filter (Glob.isMatch pattern)).length :=
  (listing.perm _).length_eq

/-- While Redis answers normally, every counter is assigned. -/
theorem World.Normal.run_btGetTorrentStats (normal : world.Normal) (redis : Context)
    (infoHashStr : Bytes) (stats : BtTorrentStats) :
    (world.run (btGetTorrentStats (some redis) config infoHashStr stats)).1 =
      .ok (torrentStats config world.store infoHashStr) := by
  obtain ⟨first, _, seeders, ready⟩ := normal.run_redisCommand redis
    (.keys (swarmPattern config infoHashStr true)) trivial
  obtain ⟨second, _, leechers, ready'⟩ := (ready.normal normal).run_redisCommand redis
    (.keys (swarmPattern config infoHashStr false)) trivial
  obtain ⟨third, _, downloads, -⟩ := ((ready.trans ready').normal normal).run_redisCommand redis
    (.hget (infoHashKey config infoHashStr) (ascii "downs")) trivial
  rw [ready.store] at leechers
  rw [(ready.trans ready').store] at downloads
  have counted := length_elements_exec_keys world.store
  simp only [swarmPattern] at seeders leechers
  have replies : (world.run (torrentStatsReplies (some .stale) (some redis) config infoHashStr
      stats)).1 = .ok (torrentStats config world.store infoHashStr, [.released (.reply 2),
        .acquired (.reply 2), .released (.reply 1), .acquired (.reply 1), .released (.reply 0),
        .acquired (.reply 0)]) := by
    simp (disch := simp) only [torrentStatsReplies, run_bind_of_ok seeders,
      run_bind_of_ok leechers, run_bind_of_ok downloads, ReplyVar.free_getReply,
      Program.pure_eq_done, Program.done_bind, Option.elim_some, run_done, counted]
    rfl
  rw [btGetTorrentStats, run_bind_of_ok (Prod.ext replies rfl)]
  rfl

end BtTracker
