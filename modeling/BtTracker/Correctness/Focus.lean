import BtTracker.Correctness.Calls
import BtTracker.Correctness.Verdicts

/-!
# Which torrents a job asks about

A job lists the swarms, reads the counters and screens the info hashes of the
torrents its datagram names, and of no other one.
-/

namespace BtTracker

open BtTracker.Foundation
open BtTracker.Foundation.Program (Performs)

variable (host : Host) (config : BtConfig) (mine : Set (Octets 20))

/-- Questions about the torrents of a set, or about none. -/
def Redis.Command.AsksFor : Redis.Command → Prop
  | .keys pattern => ∃ infoHash ∈ mine, ∃ isSeeder,
      pattern = swarmPattern config (infoHashText infoHash) isSeeder
  | .hget key _ => ∃ infoHash ∈ mine, key = infoHashKey config (infoHashText infoHash)
  | .sismember key _ =>
      key = restrictionKey config (ascii "wl") ∨ key = restrictionKey config (ascii "bl")
  | _ => True

def Op.AsksFor : Op → Prop
  | .redisCommand _ request => request.AsksFor config mine
  | _ => True

/-- A program that asks for these torrents only. -/
abbrev Worker.AsksFor {α : Type} (program : Worker α) : Prop :=
  Performs (Op.AsksFor config mine) (fun _ => True) program

open Worker (AsksFor)

variable {config mine} {infoHash : Octets 20} (redis : Option Context)

theorem redisCommand_asks {request : Redis.Command} (asks : request.AsksFor config mine) :
    AsksFor config mine (redisCommand redis request) := by
  cases redis with
  | none => exact Performs.fault_iff.mpr trivial
  | some redis => exact Performs.perform_iff.mpr asks

/-- Whatever a program sends, if it sends no questions about torrents. -/
theorem Worker.Handles.asks {α : Type} {context : Context} {sends : Redis.Command → Prop}
    {program : Worker α} (handles : Worker.Handles context sends program)
    (implies : ∀ request, sends request → request.AsksFor config mine) :
    AsksFor config mine program := by
  apply Performs.mono handles
  · intro op allowed
    cases op with
    | redisCommand context request => exact implies request allowed.2
    | _ => trivial
  · intro _ _
    trivial

/-! ## Connections -/

theorem acquireRedis_asks : AsksFor config mine (acquireRedis config) := by
  apply Performs.mono (acquireRedis_connects config)
  · intro op connects
    cases op with
    | redisCommand context request =>
        cases request with
        | ping | select _ => trivial
        | _ => exact connects.elim
    | _ => trivial
  · intro _ _
    trivial

theorem btValidRequest_asks (req : BtReq) (packetlen : Nat) :
    AsksFor config mine (btValidRequest host redis config req packetlen) := by
  have connection : AsksFor config mine
      (btConnectionValid host redis config req.connectionId) := by
    refine .bind (redisCommand_asks redis trivial) fun reply => ?_
    cases reply <;> exact .done _
  rw [btValidRequest]
  split
  · exact .done _
  · split
    · exact connection
    · exact .done _
  · split
    · exact connection
    · exact .done _
  · exact .done _

theorem btSendError_asks (request : BtReq) (msg : Option Bytes) :
    AsksFor config mine (btSendError host request msg) := by
  cases msg with
  | none => exact Performs.fault_iff.mpr trivial
  | some msg => exact .ofOption trivial _

theorem btHandleConnection_asks (context : Context) (request : BtReq) (buflen : Nat) :
    AsksFor config mine
      (btHandleConnection host request config buflen (some context)) := by
  apply Performs.bind (btValidRequest_asks host (some context) request buflen)
  intro valid
  cases valid with
  | false => exact .done _
  | true =>
      have drawn : AsksFor config mine (btRandomInt64 host) := by
        apply Performs.bind
        · exact (randomBytes_handles context (fun _ => False) 8).asks fun _ => False.elim
        · exact fun _ => .done _
      have stored (connectionId : BitVec 64) : AsksFor config mine
          (btInsertConnection host (some context) config connectionId) :=
        .bind (redisCommand_asks _ trivial) fun _ => .done _
      exact .bind drawn fun connectionId => .bind (stored connectionId) fun _ =>
        .bind (.ofOption trivial _) fun _ => .done _

/-! ## Torrents -/

theorem btInfoHashBlacklisted_asks (infoHashStr : Bytes) :
    AsksFor config mine (btInfoHashBlacklisted redis config infoHashStr) := by
  rw [btInfoHashBlacklisted]
  split
  · refine .bind (redisCommand_asks redis (Or.inl rfl)) fun reply => ?_
    split <;> exact .done _
  · refine .bind (redisCommand_asks redis (Or.inr rfl)) fun reply => ?_
    split <;> exact .done _
  · exact .done _

theorem btUpdatePeerList_asks (context : Context) (announceRequest : BtAnnounceReq)
    (clientAddr : SockaddrPtr) (infoHashStr : Bytes) (isSeeder : Bool) :
    AsksFor config mine (btUpdatePeerList host (some context) config announceRequest clientAddr
      infoHashStr isSeeder) := by
  apply (btUpdatePeerList_handles ..).asks
  intro request writes
  cases request with
  | keys _ | hget _ _ | sismember _ _ => exact absurd trivial writes
  | _ => trivial

theorem fetchPeers_asks (keys : List Bytes) (list : List BtPeerAddr) (count : Nat) :
    AsksFor config mine (fetchPeers host redis keys list count) := by
  induction keys generalizing list count with
  | nil => exact .done _
  | cons key rest ih =>
      refine .bind (redisCommand_asks redis trivial) fun reply => ?_
      cases reply with
      | none => exact ih list count
      | some reply =>
          have addressed : AsksFor config mine (readPeerAddr host reply) := by
            rw [readPeerAddr]
            split
            · exact Performs.fault_iff.mpr trivial
            · split
              · exact .done _
              · exact Performs.fault_iff.mpr trivial
          exact .bind addressed fun addr => ih _ _

variable (wanted : infoHash ∈ mine)

include wanted in
theorem listing_asks (isSeeder : Bool) : AsksFor config mine
    (redisCommand redis
      (.keys (swarmPrefix config (infoHashText infoHash) isSeeder ++ ascii "*"))) :=
  redisCommand_asks redis ⟨infoHash, wanted, isSeeder, rfl⟩

include wanted in
theorem btPeerList_asks (numWant : BitVec 32) (peerCount : Nat) (seeder : Bool) :
    AsksFor config mine (btPeerList host redis config (infoHashText infoHash) numWant peerCount
      seeder) := by
  apply Performs.bind (listing_asks redis wanted seeder)
  intro reply
  cases reply with
  | none => exact .done _
  | some reply =>
      cases reply with
      | array elements =>
          have shuffled : AsksFor config mine
              (shuffleFrom (upperIndex elements.length numWant).toNat 0 elements) :=
            (shuffleFrom_handles 0 (fun _ => False) _ 0 elements).asks fun _ => False.elim
          exact .bind shuffled fun _ => fetchPeers_asks host redis _ [] 0
      | _ => exact .done _

include wanted in
theorem selectPeers_asks (numWant : BitVec 32) (isSeeder : Bool) :
    AsksFor config mine
      (selectPeers host redis config (infoHashText infoHash) numWant isSeeder) := by
  apply Performs.bind (btPeerList_asks host redis wanted ..)
  intro opposite
  dsimp only
  split
  · apply Performs.bind (btPeerList_asks host redis wanted ..)
    intro siblings
    split <;> exact .done _
  · exact .done _

include wanted in
theorem btGetTorrentStats_asks (stats : BtTorrentStats) :
    AsksFor config mine (btGetTorrentStats redis config (infoHashText infoHash) stats) := by
  have counter : AsksFor config mine
      (redisCommand redis (.hget (infoHashKey config (infoHashText infoHash)) (ascii "downs"))) :=
    redisCommand_asks redis ⟨infoHash, wanted, rfl⟩
  have replies : AsksFor config mine
      (torrentStatsReplies (some .stale) redis config (infoHashText infoHash) stats) :=
    .bind (listing_asks redis wanted true) fun _ => .bind (ReplyVar.free_performs _) fun _ =>
      .bind (listing_asks redis wanted false) fun _ => .bind (ReplyVar.free_performs _) fun _ =>
        .bind counter fun _ => .bind (ReplyVar.free_performs _) fun _ => .done _
  exact .bind replies fun _ => .done _

/-- What is listed for a torrent are keys of its swarm. -/
theorem Named.peer_of_listed {host : Host} {store : Redis.Store} (named : Named host config store)
    (plain : config.Plain) {delivery : Redis.Delivery} {listing : Redis.Listing}
    {isSeeder : Bool} {elements : List Bytes}
    (replied : (store.deliver delivery listing
      (.keys (swarmPattern config (infoHashText infoHash) isSeeder))).1 = some (.array elements))
    {key : Bytes} (member : key ∈ elements) :
    ∃ peerId, key = (KeyName.peer infoHash isSeeder peerId).encode host config := by
  cases delivery with
  | normal =>
      obtain ⟨present, accepted⟩ :=
        Redis.Store.mem_of_exec_keys (Option.some.inj replied) member
      obtain ⟨entry, found⟩ := Option.ne_none_iff_exists'.mp present
      obtain ⟨name, rfl⟩ := named found
      obtain ⟨peerId, rfl⟩ := (plain.isMatch_encode host).mp accepted
      exact ⟨peerId, rfl⟩
  | refused text | unsent | unanswered => cases replied

/-! ## Handlers -/

include wanted in
theorem answerAnnounce_asks (request : BtReq) (announceRequest : BtAnnounceReq)
    (isSeeder : Bool) :
    AsksFor config mine (answerAnnounce host request config announceRequest
      (infoHashText infoHash) isSeeder redis) :=
  .bind (selectPeers_asks host redis wanted ..) fun _ =>
    .bind (btGetTorrentStats_asks redis wanted _) fun _ => .bind (.ofOption trivial _) fun _ =>
      .bind (.ofOption trivial _) fun _ => .ofOption trivial _

/-- An announce asks about its own torrent. -/
theorem btHandleAnnounce_asks (context : Context) (request : BtReq) (buff : RecvBuffer)
    (buflen : Nat) (clientAddr : SockaddrPtr)
    (wanted : (btReadAnnounceRequestData host buff).infoHash ∈ mine) :
    AsksFor config mine
      (btHandleAnnounce host request config buff buflen clientAddr (some context)) := by
  apply Performs.bind (btValidRequest_asks host (some context) request buflen)
  intro valid
  cases valid with
  | false => exact .done _
  | true =>
      apply Performs.bind (btInfoHashBlacklisted_asks (some context) _)
      intro refused
      cases refused with
      | true => exact .bind (btSendError_asks host request _) fun _ => .done _
      | false =>
          apply Performs.bind (btUpdatePeerList_asks host context ..)
          intro _
          exact .bind (answerAnnounce_asks host (some context) wanted ..) fun _ => .done _

include wanted in
theorem scrapeEntry_asks : AsksFor config mine
    (scrapeEntry redis config (infoHashText infoHash)) :=
  .bind (btGetTorrentStats_asks redis wanted _) fun _ => .bind (.ofOption trivial _) fun _ =>
    .bind (.ofOption trivial _) fun _ => .bind (.ofOption trivial _) fun _ => .done _

theorem exists_ofFn_of_length {width : Nat} {bytes : Bytes} (whole : bytes.length = width) :
    ∃ octets : Octets width, bytes = List.ofFn octets := by
  subst whole
  exact ⟨bytes.get, (List.ofFn_get bytes).symm⟩

theorem scrapeLoop_asks (request : BtScrapeReq)
    (wanted : ∀ infoHash, infoHashText infoHash ∈ request.texts → infoHash ∈ mine)
    (rounds : Nat) (i : BitVec 8) (entries : List BtScrapeEntry) :
    AsksFor config mine (scrapeLoop redis config request rounds i entries) := by
  induction rounds generalizing i entries with
  | zero => exact Performs.fault_iff.mpr trivial
  | succ rounds ih =>
      rw [scrapeLoop]
      split
      · rename_i more
        rw [BtScrapeReq.hashAt]
        dsimp only
        split
        · rename_i whole
          rw [Program.pure_eq_done, Program.done_bind]
          have listed : cString (btBytearrayToHexarray
              ((request.infoHash.drop (i.toNat * 20)).take 20)) ∈ request.texts :=
            List.mem_map.mpr ⟨i.toNat, List.mem_range.mpr more, rfl⟩
          obtain ⟨infoHash, same⟩ := exists_ofFn_of_length whole
          rw [same] at listed ⊢
          apply Performs.bind (btInfoHashBlacklisted_asks redis _)
          intro refused
          cases refused with
          | true => exact .done _
          | false =>
              exact .bind (scrapeEntry_asks redis (wanted infoHash listed)) fun stats => ih _ _
        · exact Performs.fault_iff.mpr trivial
      · exact .done _

/-- A scrape asks about the torrents it names. -/
theorem btHandleScrape_asks (request : BtReq) (buff : RecvBuffer) (buflen : Nat)
    (wanted : ∀ scrapeRequest, btReadScrapeRequestData host buff buflen = some scrapeRequest →
      ∀ infoHash, infoHashText infoHash ∈ scrapeRequest.texts → infoHash ∈ mine) :
    AsksFor config mine (btHandleScrape host request config buff buflen redis) := by
  apply Performs.bind (btValidRequest_asks host redis request buflen)
  intro valid
  cases valid with
  | false => exact .done _
  | true =>
      cases read : btReadScrapeRequestData host buff buflen with
      | none => exact Performs.fault_iff.mpr trivial
      | some scrapeRequest =>
          have answered : AsksFor config mine
              (answerScrape host request config scrapeRequest redis) := by
            apply Performs.bind (scrapeLoop_asks redis scrapeRequest (wanted _ read) 256 0 [])
            intro entries
            cases entries with
            | none => exact btSendError_asks host request _
            | some entries => exact .ofOption trivial _
          change AsksFor config mine (some <$> answerScrape host request config _ redis)
          exact .bind answered fun _ => .done _

end BtTracker
