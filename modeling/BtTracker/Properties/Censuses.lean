import BtTracker.Properties.Provenance

/-!
# When the counts of a response were right

The statistics in a response come from separate commands, and the swarm changes
between them.  So a response is no picture of a single moment; but each of its counts
is one, of a moment at which the request was being handled.
-/

namespace BtTracker

open BtTracker.Foundation BtTracker.Specification

/-- Commands that ask for statistics. -/
def Redis.Command.Surveys : Redis.Command → Prop
  | .keys _ | .hget _ _ => True
  | _ => False

variable {host : Host} {config : BtConfig} {infoHash : Octets 20} {isSeeder : Bool}

/-- The swarms of a database are those of the tracker whose state it holds. -/
theorem Represents.swarm_eq {tracker : TrackerState} {counters : Octets 20 → Nat}
    {store : Redis.Store} (represents : Represents host config tracker counters store) :
    swarm host config store infoHash isSeeder = tracker.peers infoHash isSeeder := by
  ext peerId
  have expires : (KeyName.peer infoHash isSeeder peerId).Expires := trivial
  simp [swarm, Tracker.peers, represents.entries _ expires, filed]

namespace Pool

variable (host config) in
/-- The number of peers that the tracker had on record at this moment. -/
def Census (infoHash : Octets 20) (isSeeder : Bool) (count : BitVec 32) (moment : Moment) : Prop :=
  ∃ events, Linearizes host config moment.1 moment.2 events ∧
    count = BitVec.ofNat 32
      ((Tracker.initial.steps config.terms events).peers infoHash isSeeder).ncard

variable (host config) in
/-- No more downloads than the tracker had counted at this moment, and not less if
every command was answered and no thread was between a promotion and its increment. -/
def Tally (infoHash : Octets 20) (count : BitVec 32) (moment : Moment) : Prop :=
  ∃ events total, Linearizes host config moment.1 moment.2 events ∧
    total ≤ (Tracker.initial.steps config.terms events).downloads infoHash ∧
    ((∀ action ∈ moment.1, Answered action) →
      (∀ thread ∈ moment.2.threads, thread.owes (fun _ => true) = false) →
        total = (Tracker.initial.steps config.terms events).downloads infoHash) ∧
    count = BitVec.ofNat 32 total

variable (host config) in
/-- Statistics each of which was right at one of the moments. -/
structure Current (moments : List Moment) (infoHash : Octets 20) (entry : BtScrapeEntry) :
    Prop where
  seeders : ∃ moment ∈ moments, Census host config infoHash true entry.seeders moment
  downloads : ∃ moment ∈ moments, Tally host config infoHash entry.downloads moment
  leechers : ∃ moment ∈ moments, Census host config infoHash false entry.leechers moment

variable (host config) in
/-- A response whose counts were right while its job was handled.  Responses to
connects have none. -/
inductive Surveyed (moments : List Moment) (job : Datagram) (data : Block) : Prop where
  | error (transactionId : BitVec 32) (msg : Bytes)
      (equal : data = errorBlock host transactionId msg)
  | connect (connects : job.action host = some .connect)
  | announce (announces : job.action host = some .announce) (header : BtAnnounceResp)
      (peers : List BtPeerAddr)
      (seeders : ∃ moment ∈ moments,
        Census host config (job.announce host).infoHash true header.seeders moment)
      (leechers : ∃ moment ∈ moments,
        Census host config (job.announce host).infoHash false header.leechers moment)
      (equal : data = Block.ofBytes (announceHeader host header ++
        peers.flatMap (peerEntry host)))
  | scrape (scrapes : job.action host = some .scrape) (header : BtScrapeResp)
      (infoHashes : List (Octets 20)) (named : job.requested host = infoHashes.map infoHashText)
      (current : List.Forall₂ (Current host config moments) infoHashes header.scrapeEntries)
      (equal : data = Block.ofBytes (scrapeHeader host header ++
        header.scrapeEntries.flatMap (statsEntry host)))

variable {schedule : List Action} {pool : Pool}

/-- A listing of a swarm counts its peers. -/
theorem Reached.census (plain : config.Plain)
    (reached : Reached host config (fun _ _ _ => True) schedule pool) (listing : Redis.Listing) :
    Census host config infoHash isSeeder (BitVec.ofNat 32 (pool.store.exec listing
      (.keys (swarmPattern config (infoHashText infoHash) isSeeder))).1.elements.length)
      (schedule, pool) := by
  obtain ⟨events, linearizes, counters, represents, -⟩ := reached.tracks
  refine ⟨events, linearizes, ?_⟩
  change BitVec.ofNat 32 (listing.order _).length = _
  rw [(listing.perm _).length_eq, reached.kept.2.named.length_listed plain, represents.swarm_eq]

/-- A counter tallies the downloads. -/
theorem Reached.tally {permits : List Action → Pool → Action → Prop}
    (reached : Reached host config permits schedule pool) (listing : Redis.Listing) :
    Tally host config infoHash ((pool.store.exec listing
      (.hget (infoHashKey config (infoHashText infoHash)) (ascii "downs"))).1.str.elim 0
        fun text => BitVec.ofInt 32 (Decimal.strtoimax (cString text))) (schedule, pool) := by
  obtain ⟨events, linearizes, tracks⟩ := reached.tracks
  obtain ⟨counters, represents, counted, exactly⟩ := tracks.exists_counters
  refine ⟨events, counters infoHash, linearizes, (counted infoHash).2,
    fun answered settled => congrFun (exactly answered settled) infoHash, ?_⟩
  have fits : counters infoHash < 2 ^ 63 := by
    have most := (counted infoHash).1
    rw [countMax] at most
    omega
  rcases (represents.counts infoHash).exec_hget listing with ⟨zero, reply⟩ | reply
  · change (pool.store.exec listing
      (.hget (infoHashKey config (infoHashText infoHash)) (ascii "downs"))).1 = _ at reply
    rw [reply, zero]
    rfl
  · change (pool.store.exec listing
      (.hget (infoHashKey config (infoHashText infoHash)) (ascii "downs"))).1 = _ at reply
    rw [reply]
    simp only [Redis.Reply.str, Option.elim_some, strtoimax_cString_ofNat fits]
    exact BitVec.ofInt_natCast ..

variable {index : Nat} {job : Datagram} {moments : List Moment} {told : Testimony}

section Attested

variable (handling : Handling host config Redis.Command.Surveys index job moments)
  (attests : Attests Redis.Command.Surveys moments told)

include handling attests

/-- A count that the job was told was right when it was told. -/
theorem Handling.census (plain : config.Plain) {count : BitVec 32}
    (counts : told.Counts config (infoHashText infoHash) isSeeder count) :
    ∃ moment ∈ moments, Census host config infoHash isSeeder count moment := by
  obtain ⟨reply, replied, rfl⟩ := counts
  rcases attests _ _ replied with ⟨moment, known, listing, rfl⟩ | ⟨exposed, -⟩
  · exact ⟨moment, known, (handling.reached known).census plain listing⟩
  · exact absurd trivial exposed

theorem Handling.tally {count : BitVec 32}
    (tallies : told.Tallies config (infoHashText infoHash) count) :
    ∃ moment ∈ moments, Tally host config infoHash count moment := by
  obtain ⟨reply, replied, rfl⟩ := tallies
  rcases attests _ _ replied with ⟨moment, known, listing, rfl⟩ | ⟨exposed, -⟩
  · exact ⟨moment, known, (handling.reached known).tally listing⟩
  · exact absurd trivial exposed

end Attested

/-- A scrape of one torrent. -/
def sampleScrape : Bytes :=
  BtReq.datagram ⟨0, BtAction.scrape.toWord, 9⟩ ++ List.ofFn (BtAnnounceReq.sample 0 2).infoHash

/-- A seeder's announce is being handled when the scrape arrives. -/
def beforeScrape : List Action :=
  [.receive sampleSeeder.sender { BtAnnounceReq.sample 0 2 with peerId := fun _ => 66 }.datagram,
    .spawn, .spawn, .take 0] ++ List.replicate 3 (.step 0 .calm) ++
  [.receive ⟨6881, 0x0100000a⟩ sampleScrape]

/-- Both threads take turns, until the scrape has its response. -/
def withAnnounce : List Action :=
  (List.replicate 8 [1, 0]).flatten.map fun index => .step index .calm

end Pool

end BtTracker
