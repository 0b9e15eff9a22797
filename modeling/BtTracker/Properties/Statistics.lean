import BtTracker.Correctness.Swarm
import BtTracker.Correctness.Threads

/-!
# Statistics of a torrent

`bt_get_torrent_stats` counts the keys that match two patterns and reads one
counter.  Peer identifiers are arbitrary bytes, chosen by clients, and the keys of
connections, counters and lists stand in the same keyspace; still the patterns
match the peers of one torrent in one role and nothing else.
-/

namespace BtTracker

open BtTracker.Foundation

variable {host : Host} {config : BtConfig} {world : World} {history : List Served}

/-! ## Counters -/

/-- Every counter of downloads is a 64-bit number in decimal. -/
def Counters (host : Host) (config : BtConfig) (store : Redis.Store) : Prop :=
  ∀ infoHash, ∃ count < 2 ^ 63,
    store.HoldsCount ((KeyName.torrent infoHash).encode host config) (ascii "downs") count

namespace Counters

variable {store : Redis.Store}

theorem of_find? {other : Redis.Store} (counters : Counters host config store)
    (same : ∀ infoHash, other.find? ((KeyName.torrent infoHash).encode host config) =
      store.find? ((KeyName.torrent infoHash).encode host config)) :
    Counters host config other := by
  intro infoHash
  obtain ⟨count, fits, holds⟩ := counters infoHash
  exact ⟨count, fits, holds.of_find? (same infoHash)⟩

/-- A command that is about no torrent. -/
theorem after (counters : Counters host config store) {request : Redis.Command}
    (others : ∀ infoHash, (KeyName.torrent infoHash).encode host config ∉ request.writes) :
    Counters host config (store.after request) :=
  counters.of_find? fun infoHash => store.find?_after_of_not_mem_writes (others infoHash)

theorem count (counters : Counters host config store) (datagram : Datagram) :
    Counters host config (store.after (datagram.countCommand host config)) := by
  intro infoHash
  by_cases counted : (KeyName.torrent infoHash).encode host config =
      datagram.torrentKey host config
  · obtain ⟨count, fits, holds⟩ := counters infoHash
    rw [counted] at holds ⊢
    exact holds.exists_after fits
  · obtain ⟨count, fits, holds⟩ := counters infoHash
    refine ⟨count, fits, holds.of_find? (store.find?_after_of_not_mem_writes fun member => ?_)⟩
    exact counted (List.mem_singleton.mp member)

theorem updates {datagram : Datagram} {after : Redis.Store}
    (counters : Counters host config store) (updates : datagram.Updates host config store after) :
    Counters host config after := by
  have notRecord (infoHash : Octets 20) (isSeeder : Bool) :
      (KeyName.torrent infoHash).encode host config ≠
        datagram.recordKey host config isSeeder := by
    rw [Datagram.recordKey, Ne, KeyName.encode_inj]
    exact KeyName.noConfusion
  have promoted : Counters host config (store.after (datagram.promoteCommand host config)) :=
    counters.after fun infoHash => by
      simp [Datagram.promoteCommand, Redis.Command.writes, notRecord]
  cases updates with
  | kept => exact counters
  | inserted registers =>
      exact counters.after fun infoHash => by
        simp [Datagram.insertCommand, Redis.Command.writes, notRecord]
  | removed stopped =>
      exact counters.after fun infoHash => by
        simp [Datagram.removeCommand, Redis.Command.writes, notRecord]
  | promoted completed => exact promoted
  | counted completed found => exact promoted.count datagram

/-- One datagram. -/
theorem serve (counters : Counters host config world.store) (arrival : Arrival) :
    Counters host config (world.serve host config arrival).2.store := by
  rcases world.store_serve_cases host config arrival with
    ⟨-, stored | stored⟩ | ⟨-, updates⟩ | ⟨-, -, stored⟩
  · rw [stored]
    exact counters
  · rw [stored]
    apply counters.after
    intro infoHash member
    have same : KeyName.torrent infoHash = .connection (world.issued host config arrival).1 :=
      KeyName.encode_injective host config (List.mem_singleton.mp member)
    cases same
  · exact counters.updates updates
  · rw [stored]
    exact counters

end Counters

/-- Counters stay counters in every run. -/
theorem Reachable.counters (reached : Reachable host config world history) :
    Counters host config world.store := by
  obtain ⟨origin, empty, run⟩ := reached
  induction run with
  | start => exact fun infoHash => ⟨0, by decide, .inl ⟨rfl, empty _⟩⟩
  | serve run arrival ih => exact ih.serve arrival
  | rest run seconds next clock others ih =>
      intro infoHash
      obtain ⟨count, fits, holds⟩ := ih infoHash
      have notList : ¬(KeyName.torrent infoHash).IsList := id
      obtain ⟨notWhitelist, notBlacklist⟩ := KeyName.encode_ne_lists notList
      exact ⟨count, fits, (holds.advance seconds).of_find? (others _ notWhitelist notBlacklist)⟩

/-! ## Jobs among other threads -/

section Threads

variable {job : Datagram} {conduct : Conduct} {redis : Context} {request : Redis.Command}
  {store : Redis.Store}

/-- Any command a job may send keeps the counters. -/
theorem Counters.permitted (counters : Counters host config store)
    (permitted : conduct.permits host config job (.redisCommand redis request)) :
    Counters host config (store.after request) := by
  by_cases counts : ∃ infoHash, (KeyName.torrent infoHash).encode host config ∈ request.writes
  · obtain ⟨infoHash, member⟩ := counts
    obtain ⟨rfl, -⟩ := Conduct.writes_torrent permitted member
    exact counters.count job
  · exact counters.after (not_exists.mp counts)

theorem Named.permitted (named : Named host config store)
    (permitted : conduct.permits host config job (.redisCommand redis request)) :
    Named host config (store.after request) := by
  intro key entry found
  by_cases member : key ∈ request.writes
  · obtain ⟨name, equal, -⟩ := permitted.exists_writes member
    exact ⟨name, equal⟩
  · rw [store.find?_after_of_not_mem_writes member] at found
    exact named found

/-- The database as threads find it: keys of the grammar, and counters. -/
structure Pool.Kept (host : Host) (config : BtConfig) (pool : Pool) : Prop where
  named : Named host config pool.store
  counters : Counters host config pool.store

namespace Pool.Kept

variable {pool after : Pool} {action : Action}

theorem perform (kept : pool.Kept host config) {index : Nat} {slot : Option Context} {op : Op}
    {next : op.Answer → Worker Unit} (choice : Choice)
    (permitted : conduct.permits host config job op) :
    (pool.perform index slot job op next choice).Kept host config := by
  cases op with
  | redisCommand redis request =>
      have stored : (pool.perform index slot job (.redisCommand redis request) next choice).store =
        (pool.store.deliver choice.delivery choice.listing request).2 := rfl
      rcases pool.store.deliver_store choice.delivery choice.listing request with same | executed
      · rw [same] at stored
        exact ⟨stored ▸ kept.named, stored ▸ kept.counters⟩
      · rw [executed] at stored
        exact ⟨stored ▸ kept.named.permitted permitted,
          stored ▸ kept.counters.permitted permitted⟩
  | _ => exact ⟨kept.named, kept.counters⟩

theorem changes (changes : pool.Changes host config action after)
    (conforms : pool.Conforms host config fun _ _ => True) (kept : pool.Kept host config) :
    after.Kept host config := by
  cases changes with
  | receive sender data serving | spawn | take serving idle queued | finish choice ends | turns action phase =>
      exact ⟨kept.named, kept.counters⟩
  | wait seconds =>
      constructor
      · intro key entry found
        exact kept.named (Redis.Store.find?_of_find?_advance found).1
      · intro infoHash
        obtain ⟨count, fits, holds⟩ := kept.counters infoHash
        exact ⟨count, fits, holds.advance seconds⟩
  | edit whitelist members =>
      constructor
      · intro key entry found
        by_cases edited : listKey config whitelist = key
        · cases whitelist with
          | true => exact ⟨.whitelist, edited.symm⟩
          | false => exact ⟨.blacklist, edited.symm⟩
        · rw [Redis.Store.find?_put_of_ne _ _ edited] at found
          exact kept.named found
      · apply kept.counters.of_find?
        intro infoHash
        exact find?_edit _ _ _ id
  | perform choice calls =>
      obtain ⟨conduct, follows, -⟩ := conforms.behaves calls
      exact kept.perform choice follows.1

end Pool.Kept

/-- Whatever the threads of a pool do, and whatever Redis fails to do. -/
theorem Pool.Reached.kept {schedule : List Action} {pool : Pool}
    (reached : Pool.Reached host config (fun _ _ _ => True) schedule pool) :
    pool.Conforms host config (fun _ _ => True) ∧ pool.Kept host config := by
  induction reached with
  | start =>
      refine ⟨.start, fun key entry found => ?_, fun infoHash => ?_⟩
      · rw [Pool.start, Redis.Store.find?_empty] at found
        cases found
      · exact ⟨0, by decide, .inl ⟨rfl, Redis.Store.find?_empty _⟩⟩
  | @act schedule pool reached action possible permitted ih =>
      obtain ⟨conforms, kept⟩ := ih
      have changes := pool.changes_act host config action
      exact ⟨conforms.changes changes (fun _ => trivial) fun _ _ _ _ _ _ _ _ _ _ _ => trivial,
        Pool.Kept.changes changes conforms kept⟩

end Threads

/-- The databases a tracker reaches from an empty one, whether its jobs run one after
the other or among each other. -/
inductive StoreReached (host : Host) (config : BtConfig) : Redis.Store → Prop where
  | sequential {world : World} {history : List Served}
      (reached : Reachable host config world history) : StoreReached host config world.store
  | concurrent {schedule : List Action} {pool : Pool}
      (reached : Pool.Reached host config (fun _ _ _ => True) schedule pool) :
      StoreReached host config pool.store

namespace StoreReached

variable {store : Redis.Store}

theorem named (reached : StoreReached host config store) : Named host config store := by
  cases reached with
  | sequential reached => exact reached.allNamed
  | concurrent reached => exact reached.kept.2.named

theorem counters (reached : StoreReached host config store) : Counters host config store := by
  cases reached with
  | sequential reached => exact reached.counters
  | concurrent reached => exact reached.kept.2.counters

end StoreReached

/-! ## What the statistics count -/

/-- The statistics of a torrent, by the peers and the counter that the database
holds of it. -/
noncomputable def exactStats (host : Host) (config : BtConfig) (store : Redis.Store)
    (infoHash : Octets 20) : BtTorrentStats where
  seeders := some (BitVec.ofNat 32 (swarm host config store infoHash true).ncard)
  downloads := some (BitVec.ofInt 32
    (store.countAt (infoHashKey config (infoHashText infoHash)) (ascii "downs")))
  leechers := some (BitVec.ofNat 32 (swarm host config store infoHash false).ncard)

/-- The text of a counter is read as its value. -/
theorem strtoimax_cString_ofNat {count : Nat} (fits : count < 2 ^ 63) :
    Decimal.strtoimax (cString (Decimal.ofNat count)) = count := by
  have noTerminator : cString (Decimal.ofNat count) = Decimal.ofNat count := by
    apply List.takeWhile_eq_self_iff.mpr
    intro byte member
    have digit := List.all_eq_true.mp (Decimal.all_isDigit_ofNat count) byte member
    exact decide_eq_true (Decimal.marks_of_isDigit byte digit).2.2.2
  rw [noTerminator, Decimal.strtoimax_ofNat count fits]

/-- What is read of the counter of a torrent. -/
theorem Counters.downloads_eq {store : Redis.Store} (counters : Counters host config store)
    (infoHash : Octets 20) :
    (torrentStats config store (infoHashText infoHash)).downloads =
      (exactStats host config store infoHash).downloads := by
  obtain ⟨count, fits, holds⟩ := counters infoHash
  simp only [torrentStats, exactStats]
  change store.HoldsCount (infoHashKey config (infoHashText infoHash)) _ _ at holds
  rw [holds.countAt fits]
  rcases holds.exec_hget .sorted with ⟨rfl, reply⟩ | reply
  · rw [reply]
    rfl
  · rw [reply]
    simp only [Redis.Reply.str, Option.elim_some, strtoimax_cString_ofNat fits]

/-- While Redis answers, the statistics of a torrent are those of its own peers
and of its own counter, and no other key matches the patterns. -/
theorem stats_exact (plain : config.Plain) (reached : StoreReached host config world.store)
    (normal : world.Normal) (redis : Context) (infoHash : Octets 20) (stats : BtTorrentStats) :
    (world.run (btGetTorrentStats (some redis) config (infoHashText infoHash) stats)).1 =
        .ok (exactStats host config world.store infoHash) ∧
      ∀ isSeeder name, Glob.isMatch (swarmPattern config (infoHashText infoHash) isSeeder)
          (KeyName.encode host config name) = true ↔
        ∃ peerId, name = .peer infoHash isSeeder peerId := by
  constructor
  · rw [normal.run_btGetTorrentStats]
    have downloads := reached.counters.downloads_eq infoHash
    have seeders := reached.named.length_listed plain infoHash true
    have leechers := reached.named.length_listed plain infoHash false
    simp only [torrentStats, exactStats, seeders, leechers] at downloads ⊢
    rw [downloads]
  · intro isSeeder name
    exact plain.isMatch_encode host

/-- A torrent with one leecher. -/
theorem stats_exact_sample :
    ((World.start.serve .little .shipped (.sample 5 2)).2.run (btGetTorrentStats (some 0) .shipped
        (infoHashText (BtAnnounceReq.sample 5 2).infoHash) .unassigned)).1 =
      .ok (exactStats .little .shipped (World.start.serve .little .shipped (.sample 5 2)).2.store
        (BtAnnounceReq.sample 5 2).infoHash) := by
  have normal : (World.start.serve .little .shipped (.sample 5 2)).2.Normal :=
    World.Normal.run (fun _ => rfl) _
  exact (stats_exact (by decide +kernel) (.sequential (Reachable.fresh.serve _)) normal 0 _ _).1

end BtTracker
