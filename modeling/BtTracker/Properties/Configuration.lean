import BtTracker.Properties.Delivery
import BtTracker.Properties.Retention
import BtTracker.Semantics.Startup

/-!
# What a documented configuration gives

The options are narrowed to the members they are stored in, and nothing checks the
ranges that the comments in `bttracker.conf` ask for.  A key file that keeps to them
starts a tracker that keeps its promises.
-/

namespace BtTracker

open BtTracker.Foundation
open BtTracker.Foundation.Program (EndsWithin)

/-- A key file that keeps to the comments in `bttracker.conf`. -/
structure KeyFile.Documented (file : KeyFile) : Prop where
  restriction : (file.getString "Announce" "InfoHashRestriction").isSome = true
  level : (file.getString "BtTracker" "LogLevel").isSome = true
  keyPrefix : (file.getString "Redis" "KeyPrefix").isSome = true
  server : (file.getString "Redis" "SocketPath").isSome = true ∨
    (file.getString "Redis" "Host").isSome = true
  threads : 1 ≤ (file.getInteger "Threading" "MaxThreads").toInt ∧
    (file.getInteger "Threading" "MaxThreads").toInt < 2 ^ 16
  waitTime : 0 ≤ (file.getInteger "Announce" "WaitTime").toInt
  peerTtl : (file.getInteger "Announce" "WaitTime").toInt <
    (file.getInteger "Announce" "PeerTTL").toInt
  maxNumWant : 1 ≤ (file.getInteger "Announce" "MaxNumWant").toInt ∧
    (file.getInteger "Announce" "MaxNumWant").toInt ≤ 80
  timeout : 0 ≤ (file.getInteger "Redis" "Timeout").toInt ∧
    (file.getInteger "Redis" "Timeout").toInt ≤ 999

/-- What a tracker with some configuration can be relied on for, along every
schedule and on every host: a timeout that is a number of microseconds, responses
that fit a small datagram, jobs with a few hundred operations at most, and peers
that stay in the swarm for the time to wait after they were registered, as long as
their own jobs leave them there.  A completed download does not register a peer. -/
structure BtConfig.Sound (config : BtConfig) : Prop where
  timeout : (config.redisTimeout * 1000).toNat = 1000 * config.redisTimeout.toNat ∧
    (config.redisTimeout * 1000).toNat < 1000000
  brief : ∀ host permits schedule pool, Pool.Reached host config permits schedule pool →
    ∀ performed ∈ pool.log, ∀ response ∈ performed.sent, response.2.length ≤ 500
  prompt : ∀ host permits schedule pool, Pool.Reached host config permits schedule pool →
    pool.Programs fun _ => EndsWithin 359
  stays : ∀ host permits infoHash isSeeder peerId schedule pool record since,
    Pool.Keeps host config permits infoHash isSeeder peerId config.announceWaitTime.toNat schedule
      pool record since →
    ∃ deadline, pool.store.now < deadline ∧
      pool.store.find? ((KeyName.peer infoHash isSeeder peerId).encode host config) =
        some ⟨.string (record.image host), some deadline⟩

/-! ## Numbers -/

/-- An integer in the range of a smaller member is kept. -/
theorem toNat_setWidth_of_range {value : BitVec 32} {limit : Nat} (small : limit ≤ 2 ^ 16)
    (positive : 0 ≤ value.toInt) (bounded : value.toInt < limit) :
    ((value.setWidth 16).toNat : Int) = value.toInt := by
  have same : value.toInt = value.toNat := by
    have cases := BitVec.toInt_eq_toNat_cond value
    have range := value.isLt
    split at cases <;> omega
  rw [BitVec.toNat_setWidth]
  omega

theorem toInt_eq_toNat_of_nonneg {value : BitVec 32} (positive : 0 ≤ value.toInt) :
    value.toInt = value.toNat := by
  have cases := BitVec.toInt_eq_toNat_cond value
  have range := value.isLt
  split at cases <;> omega

/-! ## The threads -/

/-- The pool that `main` creates is one that a schedule reaches. -/
theorem reached_btNewRequestProcessorPool (host : Host) (config : BtConfig)
    (options : BtOptions) :
    Pool.Reached host config (fun _ _ _ => True)
      (List.replicate options.threadMax.toNat .spawn) (btNewRequestProcessorPool options) := by
  rw [btNewRequestProcessorPool]
  induction options.threadMax.toNat with
  | zero => exact .start
  | succ count ih =>
      have spawned := ih.act .spawn rfl trivial
      rw [List.replicate_succ]
      rw [List.replicate_succ']
      exact spawned

/-! ## Soundness -/

theorem BtConfig.sound_of_ranges {config : BtConfig} (wants : config.announceMaxNumwant.toNat ≤ 80)
    (waits : (config.announceWaitTime.toNat : Int) < config.peerTtl)
    (times : config.redisTimeout.toNat ≤ 999) : config.Sound := by
  have microseconds : (config.redisTimeout * 1000).toNat = 1000 * config.redisTimeout.toNat := by
    have thousand : (1000 : BitVec 32).toNat = 1000 := rfl
    rw [BitVec.toNat_mul, thousand, Nat.mod_eq_of_lt (by omega), Nat.mul_comm]
  constructor
  · exact ⟨microseconds, by omega⟩
  · intro host permits schedule pool reached performed member response sent
    have short := reached.brief performed member response sent
    rw [responseLimit] at short
    omega
  · intro host permits schedule pool reached
    have limit : jobLimit config ≤ 359 := by
      rw [jobLimit]
      omega
    exact reached.programs
      (fun job => (btRequestProcessor_within host config job.params).mono limit)
      fun _ _ _ answer within => EndsWithin.mono (within answer) (Nat.le_succ _)
  · intro host permits infoHash isSeeder peerId schedule pool record since keeps
    obtain ⟨moment, clock, found⟩ := keeps.find?_record waits
    refine ⟨_, ?_, found⟩
    have bounded := keeps.since_le
    omega

/-- The workers find what they read. -/
theorem KeyFile.Documented.exists_config {file : KeyFile} (documented : file.Documented)
    (restriction level : Bytes) :
    ∃ config, (file.options restriction level).config? = some config ∧
      config.announceWaitTime = file.getInteger "Announce" "WaitTime" ∧
      config.announcePeerTtl = file.getInteger "Announce" "PeerTTL" ∧
      config.announceMaxNumwant = (file.getInteger "Announce" "MaxNumWant").setWidth 16 ∧
      config.redisTimeout = file.getInteger "Redis" "Timeout" := by
  obtain ⟨keyPrefix, named⟩ := Option.isSome_iff_exists.mp documented.keyPrefix
  have prefixed : (file.options restriction level).redisKeyPrefix = some keyPrefix := named
  cases given : file.getString "Redis" "SocketPath" with
  | some path =>
      have socket : (file.options restriction level).redisSocketPath = some path := given
      simp only [BtOptions.config?, prefixed, socket, Option.bind_eq_bind, Option.bind_some]
      exact ⟨_, rfl, rfl, rfl, rfl, rfl⟩
  | none =>
      have server := documented.server
      rw [given] at server
      obtain ⟨server, found⟩ := Option.isSome_iff_exists.mp (server.resolve_left (by decide))
      have socket : (file.options restriction level).redisSocketPath = none := given
      have host : (file.options restriction level).redisHost = some server := found
      simp only [BtOptions.config?, prefixed, socket, host, Option.bind_eq_bind, Option.bind_some]
      exact ⟨_, rfl, rfl, rfl, rfl, rfl⟩

/-- The ranges of the key file are those of the configuration. -/
theorem KeyFile.Documented.exists_sound {file : KeyFile} (documented : file.Documented)
    (restriction level : Bytes) :
    ∃ config, (file.options restriction level).config? = some config ∧ config.Sound := by
  obtain ⟨config, read, waitTime, peerTtl, maxNumwant, timeout⟩ :=
    documented.exists_config restriction level
  refine ⟨config, read, BtConfig.sound_of_ranges ?_ ?_ ?_⟩
  · have bounded : (file.getInteger "Announce" "MaxNumWant").toInt < (81 : Nat) :=
      Int.lt_add_one_of_le documented.maxNumWant.2
    have positive : 0 ≤ (file.getInteger "Announce" "MaxNumWant").toInt :=
      Int.le_trans (by decide) documented.maxNumWant.1
    have kept := toNat_setWidth_of_range (by decide) positive bounded
    rw [maxNumwant]
    omega
  · rw [waitTime, BtConfig.peerTtl, peerTtl, ← toInt_eq_toNat_of_nonneg documented.waitTime]
    exact documented.peerTtl
  · have value := toInt_eq_toNat_of_nonneg documented.timeout.1
    have bounded := documented.timeout.2
    rw [timeout]
    omega

/-- Given a socket, a tracker whose key file keeps to the documentation serves, with
as many threads as the file asks for, and it is sound whatever is sent to it. -/
theorem main_of_documented {file : KeyFile} (documented : file.Documented) {network : Network}
    (resolves : ∀ address port, network.resolves address port = true)
    (opens : network.opens = true) (binds : ∀ address port, network.binds address port = true) :
    ∃ options config pool, main 2 (some file) network = .serves options pool ∧
      options.config? = some config ∧ config.Sound ∧
      (pool.threads.length : Int) = (file.getInteger "Threading" "MaxThreads").toInt ∧
      ∀ host, Pool.Reached host config (fun _ _ _ => True)
        (List.replicate pool.threads.length .spawn) pool := by
  obtain ⟨restriction, restricted⟩ := Option.isSome_iff_exists.mp documented.restriction
  obtain ⟨level, levelled⟩ := Option.isSome_iff_exists.mp documented.level
  obtain ⟨config, read, sound⟩ := documented.exists_sound restriction level
  have loaded : btLoadConfig (some file) = .loaded (file.options restriction level) := by
    simp only [btLoadConfig, restricted, levelled]
  have threads : (btNewRequestProcessorPool (file.options restriction level)).threads.length =
      (file.options restriction level).threadMax.toNat := List.length_replicate
  refine ⟨file.options restriction level, config,
    btNewRequestProcessorPool (file.options restriction level), ?_, read, sound, ?_, ?_⟩
  · simp [main, loaded, resolves, opens, binds]
  · rw [threads]
    exact toNat_setWidth_of_range (Nat.le_refl _)
      (Int.le_trans (by decide) documented.threads.1) documented.threads.2
  · intro host
    rw [threads]
    exact reached_btNewRequestProcessorPool host config _

/-- The key file that comes with the tracker. -/
def KeyFile.shipped : KeyFile where
  getString
    | "BtTracker", "LogLevel" => some (ascii "INFO")
    | "BtTracker", "Address" => some (ascii "0.0.0.0")
    | "Announce", "InfoHashRestriction" => some (ascii "none")
    | "Redis", "SocketPath" => some (ascii "/tmp/redis.sock")
    | "Redis", "Host" => some (ascii "127.0.0.1")
    | "Redis", "KeyPrefix" => some (ascii "bttracker")
    | _, _ => none
  getInteger
    | "BtTracker", "Port" => 1234
    | "Threading", "MaxThreads" => 4
    | "Threading", "MaxIdleTime" => 300
    | "Announce", "WaitTime" => 1800
    | "Announce", "PeerTTL" => 1920
    | "Announce", "MaxNumWant" => 80
    | "Redis", "Port" => 6379
    | "Redis", "Timeout" => 500
    | _, _ => 0

/-- A host with a free port. -/
def Network.free : Network := ⟨fun _ _ => true, true, fun _ _ => true⟩

theorem main_of_shipped : ∃ options config pool,
    main 2 (some .shipped) .free = .serves options pool ∧ options.config? = some config ∧
      config.Sound ∧ pool.threads.length = 4 := by
  have documented : KeyFile.shipped.Documented := by
    constructor <;> decide
  obtain ⟨options, config, pool, serves, read, sound, threads, -⟩ :=
    main_of_documented documented (fun _ _ => rfl : ∀ _ _, Network.free.resolves _ _ = true) rfl
      fun _ _ => rfl
  have four : (KeyFile.shipped.getInteger "Threading" "MaxThreads").toInt = (4 : Nat) := rfl
  rw [four] at threads
  exact ⟨options, config, pool, serves, read, sound, Int.ofNat.inj threads⟩

example : (KeyFile.shipped.options (ascii "none") (ascii "INFO")).config? = some .shipped := rfl

end BtTracker
