import BtTracker.Correctness.Focus
import BtTracker.Properties.Linearization
import BtTracker.Properties.Progress
import BtTracker.Properties.Selection
import BtTracker.Properties.Statistics
import BtTracker.Properties.Testimony

/-!
# Where the addresses of a response come from

A job that sends a response has been told everything in it by the server, at moments
that lie between its first operation and this one.  At each of these moments the
database was the one that the schedule so far explains.
-/

namespace BtTracker

open BtTracker.Foundation BtTracker.Specification
open BtTracker.Foundation.Program (Follows)

/-- Commands that read a value. -/
def Redis.Command.Fetches : Redis.Command → Prop
  | .get _ => True
  | _ => False

namespace Pool

variable (host : Host) (config : BtConfig)

/-- A pool, with the schedule that led to it. -/
abbrev Moment := List Action × Pool

/-! ## While a job is handled -/

/-- Whatever the thread does, no command that is spared gets an error. -/
def Spares (spared : Redis.Command → Prop) (index : Nat) (pool : Pool) (action : Action) : Prop :=
  ∀ choice slot job redis request next text, action = .step index choice →
    pool.threads[index]? = some ⟨slot, some (job, .call (.redisCommand redis request) next)⟩ →
      spared request → choice.delivery ≠ .refused text

/-- All moments since a thread took a job that it has not finished yet, the last one
first. -/
inductive Handling (spared : Redis.Command → Prop) (index : Nat) (job : Datagram) :
    List Moment → Prop where
  | take {schedule : List Action} {pool : Pool} {slot : Option Context} {rest : List Datagram}
      (reached : Reached host config (fun _ _ _ => True) schedule pool)
      (serving : pool.phase = .serving) (idle : pool.threads[index]? = some ⟨slot, none⟩)
      (queued : pool.queue = job :: rest) :
      Handling spared index job
        [(.take index :: schedule, pool.act host config (.take index))]
  | act {schedule : List Action} {pool : Pool} {moments : List Moment} {slot : Option Context}
      {other : Datagram} {program : Worker Unit}
      (handling : Handling spared index job ((schedule, pool) :: moments))
      (runs : pool.threads[index]? = some ⟨slot, some (other, program)⟩) (action : Action)
      (possible : pool.phase.allows action = true) (spares : pool.Spares spared index action) :
      Handling spared index job
        ((action :: schedule, pool.act host config action) :: (schedule, pool) :: moments)

/-- Everything the job was told is what the server had to say at one of the moments,
except for errors in reply to commands that are not spared. -/
def Attests (spared : Redis.Command → Prop) (moments : List Moment) (told : Testimony) : Prop :=
  ∀ request reply, (request, reply) ∈ told →
    (∃ moment ∈ moments, ∃ listing, reply = (moment.2.store.exec listing request).1) ∨
      (¬spared request ∧ ∃ text, reply = .error text)

variable {host config} {spared : Redis.Command → Prop} {index : Nat} {job : Datagram}
  {schedule : List Action} {pool : Pool} {moments : List Moment} {infoHash : Octets 20}

/-- Every moment is one of a schedule. -/
theorem Handling.reached (handling : Handling host config spared index job moments)
    {moment : Moment} (among : moment ∈ moments) :
    Reached host config (fun _ _ _ => True) moment.1 moment.2 := by
  induction handling generalizing moment with
  | take reached serving idle queued =>
      cases List.mem_singleton.mp among
      refine reached.act _ ?_ trivial
      rw [serving]
      rfl
  | act handling runs action possible spares ih =>
      rcases List.mem_cons.mp among with rfl | earlier
      · exact (ih (List.mem_cons_self ..)).act action possible trivial
      · exact ih earlier

theorem Attests.mono {told : Testimony} (attests : Attests spared moments told)
    {more : List Moment} (subset : moments ⊆ more) : Attests spared more told := by
  intro request reply member
  rcases attests request reply member with ⟨moment, known, own⟩ | refused
  · exact .inl ⟨moment, subset known, own⟩
  · exact .inr refused

/-- One more reply, or none. -/
theorem Attests.perform {told : Testimony} (attests : Attests spared moments told)
    (among : (schedule, pool) ∈ moments) {slot : Option Context} {op : Op}
    {next : op.Answer → Worker Unit}
    (calls : pool.threads[index]? = some ⟨slot, some (job, .call op next)⟩) {choice : Choice}
    (spares : pool.Spares spared index (.step index choice)) :
    Attests spared moments (told.next op (World.exec op (pool.world slot choice)).1) := by
  cases op with
  | redisCommand redis request =>
      generalize answered : (World.exec (.redisCommand redis request)
        (pool.world slot choice)).1 = answer
      cases answer with
      | none => exact attests
      | some reply =>
          change (pool.store.deliver choice.delivery choice.listing request).1 = some reply
            at answered
          intro other told member
          rcases List.mem_cons.mp member with same | earlier
          · cases same
            cases delivery : choice.delivery with
            | normal =>
                rw [delivery] at answered
                exact .inl ⟨_, among, _, (Option.some.inj answered).symm⟩
            | refused text =>
                rw [delivery] at answered
                refine .inr ⟨fun safe => ?_, text, (Option.some.inj answered).symm⟩
                exact spares choice slot job redis _ next text rfl calls safe delivery
            | unsent | unanswered =>
                rw [delivery] at answered
                cases answered
          · exact attests other told earlier
  | _ => exact attests

/-- A thread that handles a job sends what the server told it in the meantime. -/
theorem Handling.attested
    (handling : Handling host config spared index job ((schedule, pool) :: moments))
    {slot : Option Context} {other : Datagram} {program : Worker Unit}
    (runs : pool.threads[index]? = some ⟨slot, some (other, program)⟩) :
    other = job ∧ ∃ told : Testimony,
      Follows (Testimony.protocol host config job) (fun _ _ => True) told program ∧
        Attests spared ((schedule, pool) :: moments) told := by
  generalize equal : (schedule, pool) :: moments = all at handling ⊢
  induction handling generalizing schedule pool moments slot other program with
  | @take before earlier kept rest reached serving idle queued =>
      cases equal
      have inside : index < earlier.threads.length := (List.getElem?_eq_some_iff.mp idle).1
      have other : Action.take index ≠ .leave := nofun
      rw [act_of_serving host config serving other] at runs
      simp only [advance, idle, queued, List.getElem?_set_self inside] at runs
      cases runs
      refine ⟨rfl, [], btRequestProcessor_learns, ?_⟩
      intro request reply member
      cases member
  | @act before earlier past kept current started handling ran action possible spares ih =>
      cases equal
      obtain ⟨rfl, told, follows, attests⟩ := ih ran rfl
      have later : (before, earlier) :: past ⊆
        (action :: before, earlier.act host config action) :: (before, earlier) :: past :=
          List.subset_cons_self ..
      cases own : action.isStep index with
      | false =>
          rw [threads_act_of_not_isStep ran own] at runs
          cases runs
          exact ⟨rfl, told, follows, attests.mono later⟩
      | true =>
          have inside : index < earlier.threads.length := (List.getElem?_eq_some_iff.mp ran).1
          cases action with
          | step position choice =>
              cases of_decide_eq_true own
              rw [Pool.act, if_pos possible] at runs
              cases started with
              | done result =>
                  simp only [advance, ran, List.getElem?_set_self inside] at runs
                  cases runs
              | fault reason =>
                  simp only [advance, ran] at runs
                  cases runs
                  exact ⟨rfl, told, follows, attests.mono later⟩
              | call op next =>
                  simp only [advance, ran, Pool.perform, List.getElem?_set_self inside] at runs
                  cases runs
                  have attested := attests.perform (List.mem_cons_self ..) ran spares
                  exact ⟨rfl, _, follows.2 _, attested.mono later⟩
          | _ => cases own

/-! ## Addresses -/

variable (host config) in
/-- At this moment the address is that of a peer which was registered for the torrent
by an announce, not longer ago than records last. -/
def Genuine (infoHash : Octets 20) (addr : BtPeerAddr) (moment : Moment) : Prop :=
  ∃ events peerId record deadline, Linearizes host config moment.1 moment.2 events ∧
    Tracker.Registered config.terms events infoHash peerId record deadline ∧
    moment.2.store.now < deadline ∧ addr = btNewPeerAddr record.ipv4Addr record.port

/-- An address that is read from a record is genuine. -/
theorem Reached.genuine_read {permits : List Action → Pool → Action → Prop}
    (reached : Reached host config permits schedule pool) {isSeeder : Bool} {peerId : Octets 20}
    {listing : Redis.Listing} {addr : BtPeerAddr} (read : readPeerAddr host (pool.store.exec listing
      (.get ((KeyName.peer infoHash isSeeder peerId).encode host config))).1 = .done addr) :
    Genuine host config infoHash addr (schedule, pool) := by
  cases found : pool.store.find?
      ((KeyName.peer infoHash isSeeder peerId).encode host config) with
  | none =>
      simp only [Redis.Store.exec, found] at read
      cases read
  | some entry =>
      obtain ⟨events, record, deadline, linearizes, registered, -, alive, rfl⟩ :=
        reached.registered found
      simp only [Redis.Store.exec, found, readPeerAddr_image] at read
      cases read
      exact ⟨events, peerId, record, deadline, linearizes, registered, alive, rfl⟩

/-- Every address in the response to an announce is that of a peer which an announce
for the same torrent has registered, and it was read while it was valid and while the
announce was handled: however the threads are interleaved, and whatever Redis fails to
do short of answering a `GET` with an error. -/
theorem Handling.cites (plain : config.Plain)
    (handling : Handling host config Redis.Command.Fetches index job
      ((schedule, pool) :: moments))
    (announces : job.action host = some .announce) {slot : Option Context} {other : Datagram}
    {address : SockaddrPtr} {data : Block} {next : Unit → Worker Unit}
    (sends : pool.threads[index]? =
      some ⟨slot, some (other, .call (.sendto address data) next)⟩) :
    (∃ transactionId msg, data = errorBlock host transactionId msg) ∨
      ∃ (header : BtAnnounceResp) (peers : List BtPeerAddr),
        data = Block.ofBytes (announceHeader host header ++ peers.flatMap (peerEntry host)) ∧
        ∀ addr ∈ peers, ∃ moment ∈ (schedule, pool) :: moments,
          Genuine host config (job.announce host).infoHash addr moment := by
  obtain ⟨-, told, follows, attests⟩ := handling.attested sends
  cases follows.1 address data rfl with
  | error transactionId msg equal => exact .inl ⟨transactionId, msg, equal⟩
  | connect connects =>
      rw [announces] at connects
      cases connects
  | scrape scrapes =>
      rw [announces] at scrapes
      cases scrapes
  | announce _ header peers seeders leechers located equal =>
      refine .inr ⟨header, peers, equal, fun addr member => ?_⟩
      obtain ⟨isSeeder, elements, key, reply, listed, among, replied, read⟩ := located addr member
      rcases attests _ _ listed with ⟨moment, known, listing, own⟩ | ⟨-, text, refused⟩
      · have delivered : (moment.2.store.deliver .normal listing (.keys (swarmPattern config
            (infoHashText (job.announce host).infoHash) isSeeder))).1 = some (.array elements) :=
          congrArg some own.symm
        obtain ⟨peerId, rfl⟩ :=
          (handling.reached known).kept.2.named.peer_of_listed plain delivered among
        rcases attests _ _ replied with ⟨last, recent, order, rfl⟩ | ⟨exposed, -⟩
        · exact ⟨last, recent, (handling.reached recent).genuine_read read⟩
        · exact absurd trivial exposed
      · cases refused

/-! ## A schedule -/

/-- Whether the thread has a job throughout. -/
def busy (host : Host) (config : BtConfig) (index : Nat) (pool : Pool) : List Action → Bool
  | [] => true
  | action :: rest =>
      (pool.threads[index]?.bind (·.running)).isSome &&
        busy host config index (pool.act host config action) rest

/-- A thread that is never idle handles the same job throughout. -/
theorem Handling.run
    (handling : Handling host config spared index job ((schedule, pool) :: moments))
    {actions : List Action} (possible : pool.possible host config actions = true)
    (stays : pool.busy host config index actions = true)
    (answered : ∀ action ∈ actions, Answered action) :
    ∃ past, Handling host config spared index job
      ((actions.reverse ++ schedule, pool.run host config actions) :: past) := by
  induction actions generalizing schedule pool moments with
  | nil => exact ⟨moments, handling⟩
  | cons action rest ih =>
      simp only [busy, Bool.and_eq_true] at stays
      obtain ⟨now, next⟩ := Bool.and_eq_true_iff.mp possible
      obtain ⟨⟨other, program⟩, running⟩ := Option.isSome_iff_exists.mp stays.1
      obtain ⟨⟨slot, kept⟩, found, same⟩ := Option.bind_eq_some_iff.mp running
      cases same
      have spares : pool.Spares spared index action := by
        intro choice slot job redis request next text own _ _ refused
        rw [answered action (List.mem_cons_self ..) index choice own] at refused
        cases refused
      obtain ⟨past, last⟩ := ih (handling.act found action now spares) next stays.2
        fun other member => answered other (List.mem_cons_of_mem _ member)
      refine ⟨past, ?_⟩
      rw [List.reverse_cons, List.append_assoc]
      exact last

/-- A seeder has just been registered when a leecher's announce arrives. -/
def beforeLeecher : List Action :=
  [.receive sampleSeeder.sender { BtAnnounceReq.sample 0 2 with peerId := fun _ => 66 }.datagram,
    .spawn, .spawn, .take 0] ++ List.replicate 8 (.step 0 .calm) ++
  [.receive ⟨6881, 0x0100000a⟩ (BtAnnounceReq.sample 5 2).datagram]

/-- Both threads take turns, until the leecher's has its response. -/
def withSeeder : List Action :=
  ((List.replicate 7 [1, 0]).flatten ++ List.replicate 10 1).map fun index => .step index .calm

theorem exists_of_idle (idle : pool.threads[index]?.map (·.running.isNone) = some true) :
    ∃ slot, pool.threads[index]? = some ⟨slot, none⟩ := by
  obtain ⟨⟨slot, running⟩, found, nothing⟩ := Option.map_eq_some_iff.mp idle
  cases running with
  | none => exact ⟨slot, found⟩
  | some task => cases nothing

/-- The response a thread is about to send. -/
def response (pool : Pool) (index : Nat) : Option Block :=
  match pool.threads[index]? with
  | some ⟨_, some (_, .call (.sendto _ data) _)⟩ => some data
  | _ => none

theorem exists_of_response {data : Block} (ready : pool.response index = some data) :
    ∃ slot job address next,
      pool.threads[index]? = some ⟨slot, some (job, .call (.sendto address data) next)⟩ := by
  rw [response] at ready
  split at ready
  · rename_i slot job address other next found
    cases ready
    exact ⟨slot, job, address, next, found⟩
  · cases ready

/-- The leecher is told the addresses of the seeder and of itself. -/
theorem cites_seeder :
    ∃ (data : Block) (header : BtAnnounceResp) (peers : List BtPeerAddr),
      (((start.run .little .shipped beforeLeecher).act .little .shipped (.take 1)).run
          .little .shipped withSeeder).response 1 = some data ∧
        data = Block.ofBytes (announceHeader .little header ++ peers.flatMap (peerEntry .little)) ∧
        peers.length = 2 ∧ ∀ addr ∈ peers, ∃ moment,
          Genuine .little .shipped (BtAnnounceReq.sample 5 2).infoHash addr moment := by
  have plain : BtConfig.shipped.Plain := by decide +kernel
  have reached : Reached .little .shipped (fun _ _ _ => True) (beforeLeecher.reverse ++ [])
      (start.run .little .shipped beforeLeecher) := Reached.run .start _ (by decide +kernel) fun _ _ => trivial
  have serving : (start.run .little .shipped beforeLeecher).phase = .serving := by
    decide +kernel
  have fresh : (start.run .little .shipped beforeLeecher).threads[1]?.map (·.running.isNone) =
      some true := by decide +kernel
  obtain ⟨kept, idle⟩ := exists_of_idle fresh
  have jobs : (start.run .little .shipped beforeLeecher).queue.map (fun job =>
      (job.action .little, (job.announce .little).infoHash)) =
    [(some .announce, (BtAnnounceReq.sample 5 2).infoHash)] := by decide +kernel
  obtain ⟨job, queued, described⟩ := List.map_eq_singleton_iff.mp jobs
  obtain ⟨announces, torrent⟩ := Prod.mk.inj described
  have possible : ((start.run .little .shipped beforeLeecher).act .little .shipped
    (.take 1)).possible .little .shipped withSeeder = true := by decide +kernel
  have stays : ((start.run .little .shipped beforeLeecher).act .little .shipped (.take 1)).busy
    .little .shipped 1 withSeeder = true := by decide +kernel
  have answered : ∀ action ∈ withSeeder, Answered action := by
    intro action member index choice own
    obtain ⟨thread, -, same⟩ := List.mem_map.mp member
    rw [own] at same
    cases same
    rfl
  obtain ⟨past, handling⟩ := (Handling.take reached serving idle queued).run possible stays
    answered
  have sized : ((((start.run .little .shipped beforeLeecher).act .little .shipped (.take 1)).run
    .little .shipped withSeeder).response 1).map List.length = some 32 := by decide +kernel
  obtain ⟨data, ready, long⟩ := Option.map_eq_some_iff.mp sized
  obtain ⟨slot, other, address, next, sends⟩ := exists_of_response ready
  rcases handling.cites plain announces sends with ⟨transactionId, msg, rfl⟩ |
    ⟨header, peers, rfl, genuine⟩
  · simp [errorBlock] at long
    omega
  · refine ⟨_, header, peers, ready, rfl, ?_, fun addr member => ?_⟩
    · simp [List.length_flatMap] at long
      omega
    · obtain ⟨moment, -, good⟩ := genuine addr member
      rw [torrent] at good
      exact ⟨moment, good⟩

end Pool

end BtTracker
