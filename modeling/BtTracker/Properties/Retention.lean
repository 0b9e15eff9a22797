import BtTracker.Properties.Delivery
import BtTracker.Properties.Linearization
import BtTracker.Correctness.Swarm

/-!
# How long a peer stays in the swarm

A record lasts for the time to live of peers after the last announce that filed it.
Until then nothing removes or changes it but announces of the same peer, whatever
other clients send, however the threads are interleaved and whichever commands get
lost.  So a peer that announces itself again in time never leaves the swarm.
-/

namespace BtTracker

open BtTracker.Foundation BtTracker.Specification

/-- The seconds an action takes. -/
def Action.elapsed : Action → Nat
  | .wait seconds => seconds
  | _ => 0

/-- The command stores a value. -/
def Redis.Command.stores : Redis.Command → Bool
  | .setex _ _ _ => true
  | _ => false

variable (host : Host) (config : BtConfig)

namespace Pool

/-- A decision of a job about the peer reaches the server. -/
def Disturbs (infoHash peerId : Octets 20) (pool : Pool) (action : Action) : Prop :=
  ∃ index choice slot job redis request next, action = .step index choice ∧
    pool.threads[index]? = some ⟨slot, some (job, .call (.redisCommand redis request) next)⟩ ∧
    Datagram.isFrom host infoHash peerId job = true ∧ request.Decides ∧
    choice.delivery.Executes

/-- The record of an announce for the peer in a role that was received.  If the announce
names no address, it carries that of the sender of a datagram received so far. -/
def Announced (schedule : List Action) (infoHash : Octets 20) (isSeeder : Bool)
    (peerId : Octets 20) (record : BtPeer) : Prop :=
  ∃ (job : Datagram) (sender : SockaddrIn) (data : Bytes) (padding : Octets 6),
    job ∈ jobs host config arriving schedule ∧ .receive sender data ∈ schedule ∧
      job.action host = some .announce ∧ job.Registers host ∧
      (job.announce host).infoHash = infoHash ∧ job.isSeeder host = isSeeder ∧
      (job.announce host).peerId = peerId ∧ record = job.recordFrom host sender padding

/-- Schedules in which a peer was registered at some point and has not been dealt
with since, together with the record it was registered with and the seconds that
have passed.  No more of them pass than the given gap. -/
inductive Keeps (permits : List Action → Pool → Action → Prop) (infoHash : Octets 20)
    (isSeeder : Bool) (peerId : Octets 20) (gap : Nat) :
    List Action → Pool → BtPeer → Nat → Prop where
  | register {schedule : List Action} {pool : Pool} {action : Action} {record : BtPeer}
      (reached : Reached host config permits schedule pool)
      (possible : pool.phase.allows action = true) (permitted : permits schedule pool action)
      (takes : pool.Takes host config action [.register infoHash isSeeder peerId record]) :
      Keeps permits infoHash isSeeder peerId gap (action :: schedule)
        (pool.act host config action) record 0
  | stay {schedule : List Action} {pool : Pool} {action : Action} {record : BtPeer} {since : Nat}
      (keeps : Keeps permits infoHash isSeeder peerId gap schedule pool record since)
      (possible : pool.phase.allows action = true) (permitted : permits schedule pool action)
      (undisturbed : ¬pool.Disturbs host infoHash peerId action)
      (soon : since + action.elapsed ≤ gap) :
      Keeps permits infoHash isSeeder peerId gap (action :: schedule)
        (pool.act host config action) record (since + action.elapsed)

variable {host config} {permits : List Action → Pool → Action → Prop} {infoHash : Octets 20}
  {isSeeder : Bool} {peerId : Octets 20} {gap : Nat} {schedule : List Action} {pool : Pool}
  {record : BtPeer} {since : Nat}

theorem Keeps.reached
    (keeps : Keeps host config permits infoHash isSeeder peerId gap schedule pool record since) :
    Reached host config permits schedule pool := by
  induction keeps with
  | register reached possible permitted takes => exact reached.act _ possible permitted
  | stay keeps possible permitted undisturbed soon ih => exact ih.act _ possible permitted

theorem Keeps.since_le
    (keeps : Keeps host config permits infoHash isSeeder peerId gap schedule pool record since) :
    since ≤ gap := by
  cases keeps with
  | register reached possible permitted takes => exact Nat.zero_le gap
  | stay keeps possible permitted undisturbed soon => exact soon

theorem Announced.mono
    (announced : Announced host config schedule infoHash isSeeder peerId record)
    (action : Action) : Announced host config (action :: schedule) infoHash isSeeder peerId record := by
  obtain ⟨job, sender, data, padding, arrived, received, described⟩ := announced
  exact ⟨job, sender, data, padding, List.mem_append_left _ arrived,
    List.mem_cons_of_mem _ received, described⟩

/-- What a registration files was announced. -/
theorem Reached.announced (reached : Reached host config permits schedule pool) {action : Action}
    (takes : pool.Takes host config action [.register infoHash isSeeder peerId record]) :
    Announced host config schedule infoHash isSeeder peerId record := by
  cases takes with
  | @decide index slot job redis request next choice calls executes _ means =>
      cases means with
      | register asked registers reads padding =>
          obtain ⟨data, received⟩ := reached.received_of_loaded reads
          have conserved := reached.conserved
          have started := conserved.kept.symm.subset (List.mem_append_right _ (mem_running calls))
          refine ⟨job, _, data, padding, ?_, received, asked, registers, rfl, rfl, rfl, rfl⟩
          rw [conserved.inOrder]
          exact List.mem_append_left _ started

/-- What is kept was announced. -/
theorem Keeps.announced
    (keeps : Keeps host config permits infoHash isSeeder peerId gap schedule pool record since) :
    Announced host config schedule infoHash isSeeder peerId record := by
  induction keeps with
  | register reached possible permitted takes => exact (reached.announced takes).mono _
  | stay keeps possible permitted undisturbed soon ih => exact ih.mono _

/-- Whatever writes the record of a peer is a decision of one of its jobs. -/
theorem decides_of_writes {conduct : Conduct} {job : Datagram} {redis : Context}
    {request : Redis.Command}
    (permitted : conduct.permits host config job (.redisCommand redis request))
    (member : (KeyName.peer infoHash isSeeder peerId).encode host config ∈ request.writes) :
    Datagram.isFrom host infoHash peerId job = true ∧ request.Decides := by
  generalize named : KeyName.peer infoHash isSeeder peerId = name at member
  cases permitted.writes member with
  | connection connectionId seconds value | counts => cases named
  | inserts registers seconds value | removes | promotes role =>
      injection named with hash _ peer
      refine ⟨?_, trivial⟩
      simp [Datagram.isFrom, Datagram.isFor, hash, peer]

variable (isSeeder) in
/-- Everything but time and the jobs of the peer leaves its record alone. -/
theorem find?_act_of_undisturbed (conforms : pool.Conforms host config fun _ _ => True)
    {action : Action} (undisturbed : ¬pool.Disturbs host infoHash peerId action)
    (still : ∀ seconds, action ≠ .wait seconds) :
    (pool.act host config action).store.now = pool.store.now ∧
    (pool.act host config action).store.find?
        ((KeyName.peer infoHash isSeeder peerId).encode host config) =
      pool.store.find? ((KeyName.peer infoHash isSeeder peerId).encode host config) := by
  apply find?_act_of_unwritten host config still
  · intro whitelist members _
    exact listKey_ne host config id whitelist
  · intro index choice slot job redis request next same calls executes member
    obtain ⟨conduct, behaves, -⟩ := conforms.behaves calls
    have permitted : conduct.permits host config job (.redisCommand redis request) := behaves.1
    obtain ⟨mine, decides⟩ := decides_of_writes permitted member
    exact undisturbed ⟨index, choice, slot, job, redis, request, next, same, calls, mine, decides,
      executes⟩

/-- The record that an executed registration files. -/
theorem find?_of_registers {action : Action} (possible : pool.phase.allows action = true)
    (takes : pool.Takes host config action [.register infoHash isSeeder peerId record])
    (lasting : 0 < config.peerTtl) :
    (pool.act host config action).store.now = pool.store.now ∧
    (pool.act host config action).store.find?
        ((KeyName.peer infoHash isSeeder peerId).encode host config) =
      some ⟨.string (record.image host), some (pool.store.now + config.peerTtl.toNat)⟩ := by
  cases takes with
  | decide choice calls executes means =>
      cases means with
      | register asked registers reads padding =>
          rw [act, if_pos possible]
          simp only [advance, calls]
          rw [store_of_executes executes, Redis.Store.now_after]
          refine ⟨rfl, ?_⟩
          exact (Redis.Store.find?_after_setex ..).trans (if_pos ⟨lasting, rfl⟩)

/-- The record of a peer that is kept, and the moment it was filed at. -/
theorem Keeps.find?_record
    (keeps : Keeps host config permits infoHash isSeeder peerId gap schedule pool record since)
    (lasting : (gap : Int) < config.peerTtl) :
    ∃ moment, pool.store.now = moment + since ∧
      pool.store.find? ((KeyName.peer infoHash isSeeder peerId).encode host config) =
        some ⟨.string (record.image host), some (moment + config.peerTtl.toNat)⟩ := by
  induction keeps with
  | register reached possible permitted takes =>
      have positive : 0 < config.peerTtl := by omega
      obtain ⟨clock, found⟩ := find?_of_registers possible takes positive
      exact ⟨_, clock, found⟩
  | @stay schedule pool action record since keeps possible permitted undisturbed soon ih =>
      obtain ⟨moment, clock, found⟩ := ih
      by_cases waits : ∃ seconds, action = .wait seconds
      · obtain ⟨seconds, rfl⟩ := waits
        simp only [Action.elapsed] at soon ⊢
        have alive : moment + since + seconds < moment + config.peerTtl.toNat := by omega
        refine ⟨moment, ?_, ?_⟩
        · rw [act_wait, Redis.Store.now_advance, clock, Nat.add_assoc]
        · rw [act_wait, Redis.Store.find?_advance, found, clock]
          simp [Option.filter, Redis.Entry.aliveAt, alive]
      · have still (seconds : Nat) : action ≠ .wait seconds :=
          fun same => waits ⟨seconds, same⟩
        have instant : action.elapsed = 0 := by
          cases action with
          | wait seconds => exact absurd rfl (still seconds)
          | _ => rfl
        obtain ⟨same, kept⟩ :=
          find?_act_of_undisturbed isSeeder keeps.reached.conforms undisturbed still
        rw [instant, same, kept]
        exact ⟨moment, clock, found⟩

/-- A peer that was registered stays in the swarm, with the record it announced, until
the time to live has passed or one of its own jobs decides otherwise: every schedule
keeps it there, and every listing of the swarm shows it, unless the prefix of the
tracker has a meaning in a pattern. -/
theorem Keeps.retains
    (keeps : Keeps host config permits infoHash isSeeder peerId gap schedule pool record since)
    (lasting : (gap : Int) < config.peerTtl) :
    Announced host config schedule infoHash isSeeder peerId record ∧
    (∃ moment, pool.store.now = moment + since ∧
      pool.store.find? ((KeyName.peer infoHash isSeeder peerId).encode host config) =
        some ⟨.string (record.image host), some (moment + config.peerTtl.toNat)⟩) ∧
    (config.Plain → ∀ listing,
      (KeyName.peer infoHash isSeeder peerId).encode host config ∈ (pool.store.exec listing
        (.keys (swarmPattern config (infoHashText infoHash) isSeeder))).1.elements) := by
  have stored := keeps.find?_record lasting
  refine ⟨keeps.announced, stored, fun plain listing => ?_⟩
  obtain ⟨moment, -, found⟩ := stored
  change _ ∈ listing.order _
  rw [(listing.perm _).mem_iff, List.mem_filter, Redis.Store.mem_keys]
  exact ⟨⟨_, found⟩, (plain.isMatch_encode host).mpr ⟨peerId, rfl⟩⟩

/-- A seeder that announces itself, up to the command that files its record. -/
def registration : List Action :=
  [.spawn, .receive ⟨1, 1⟩ (BtAnnounceReq.sample 0 2).datagram, .take 0] ++
    List.replicate 7 (.step 0 .calm)

/-- An announce stores a record with an address it has read. -/
theorem Reached.reads_of_stores (reached : Reached host config permits schedule pool)
    {index : Nat} {slot : Option Context} {job : Datagram} {redis : Context}
    {request : Redis.Command} {next : Option Redis.Reply → Worker Unit}
    (calls : pool.threads[index]? =
      some ⟨slot, some (job, .call (.redisCommand redis request) next)⟩)
    (announces : job.action host = some .announce) (stores : request.stores = true) :
    ∃ address padding, pool.Loaded job address ∧
      request = .setex (job.recordKey host config (job.isSeeder host)) config.peerTtl
        ((job.recordFrom host address padding).image host) := by
  obtain ⟨conduct, behaves, remembers⟩ := reached.loads.behaves calls
  have permitted : conduct.permits host config job (.redisCommand redis request) := behaves.1
  cases request with
  | setex key seconds value =>
      obtain ⟨address, padding, remembered, rfl, rfl, rfl⟩ := permitted.stores announces
      exact ⟨address, padding, remembers address remembered, rfl⟩
  | _ => cases stores

/-- A property of the command the first thread is about to send. -/
def asks (check : Datagram → Redis.Command → Bool) (pool : Pool) : Bool :=
  match pool.threads[(0 : Nat)]? with
  | some ⟨_, some (job, .call (.redisCommand _ request) _)⟩ => check job request
  | _ => false

theorem exists_of_asks {check : Datagram → Redis.Command → Bool}
    (asks : pool.asks check = true) : ∃ slot job redis request next,
      pool.threads[0]? = some ⟨slot, some (job, .call (.redisCommand redis request) next)⟩ ∧
        check job request = true := by
  rw [Pool.asks] at asks
  split at asks
  · exact ⟨_, _, _, _, _, ‹_›, asks⟩
  · cases asks

/-- Half an hour later the record is still there, and it has two minutes left. -/
theorem retains_registration : ∃ record : BtPeer,
    (((start.run .little .shipped registration).act .little .shipped (.step 0 .calm)).act
      .little .shipped (.wait 1800)).store.find?
        ((KeyName.peer (BtAnnounceReq.sample 0 2).infoHash true
          (BtAnnounceReq.sample 0 2).peerId).encode .little .shipped) =
      some ⟨.string (record.image .little), some 1920⟩ := by
  have reached : Reached .little .shipped (fun _ _ _ => True) (registration.reverse ++ [])
      (start.run .little .shipped registration) :=
    Reached.run .start registration (by decide +kernel) fun _ _ => trivial
  have ready : (start.run .little .shipped registration).asks (fun job request =>
      decide (job.action .little = some .announce) && decide (job.Registers .little) &&
      decide (job.isSeeder .little = true) &&
      decide ((job.announce .little).infoHash = (BtAnnounceReq.sample 0 2).infoHash) &&
      decide ((job.announce .little).peerId = (BtAnnounceReq.sample 0 2).peerId) &&
      request.stores) = true := by
    decide +kernel
  obtain ⟨slot, job, redis, request, next, calls, checked⟩ := exists_of_asks ready
  simp only [Bool.and_eq_true, decide_eq_true_eq] at checked
  obtain ⟨⟨⟨⟨⟨announces, registers⟩, seeds⟩, hash⟩, peer⟩, stores⟩ := checked
  obtain ⟨address, padding, reads, rfl⟩ := reached.reads_of_stores calls announces stores
  have takes := Takes.decide .calm calls trivial (.register announces registers reads padding)
  rw [seeds, hash, peer] at takes
  have undisturbed (pool : Pool) : ¬pool.Disturbs .little (BtAnnounceReq.sample 0 2).infoHash
      (BtAnnounceReq.sample 0 2).peerId (.wait 1800) := by
    intro disturbed
    obtain ⟨_, _, _, _, _, _, _, same, _⟩ := disturbed
    cases same
  have keeps : Keeps .little .shipped (fun _ _ _ => True) _ _ _ 1800 _ _ _ _ :=
    .stay (.register reached (by decide +kernel) trivial takes) (by decide +kernel) trivial
      (undisturbed _) (by decide)
  obtain ⟨-, ⟨moment, clock, found⟩, -⟩ := keeps.retains (by decide)
  have began : moment = 0 := by
    have now : (((start.run .little .shipped registration).act .little .shipped
      (.step 0 .calm)).act .little .shipped (.wait 1800)).store.now = 1800 := by decide +kernel
    rw [now] at clock
    exact Nat.add_right_cancel clock.symm
  subst began
  exact ⟨_, found⟩

end Pool

end BtTracker
