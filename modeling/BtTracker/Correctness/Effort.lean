import BtTracker.Foundation.Extent
import BtTracker.Correctness.Jobs
import BtTracker.Correctness.Observers
import BtTracker.Correctness.PeerLists
import BtTracker.Correctness.Scrapes

/-!
# What a job costs

Whatever Redis answers, and whatever other threads do in between, a job performs a
bounded number of operations, changes the database at one point only, and sends
at most one response, whose size is bounded by the configuration.
-/

namespace BtTracker

open BtTracker.Foundation
open BtTracker.Foundation.Program (AtMostOnce MayPerform Performs Results EndsWithin)

variable (host : Host) (config : BtConfig) (redis : Option Context)

/-! ## Number of operations -/

theorem redisCommand_within (request : Redis.Command) :
    EndsWithin 1 (redisCommand redis request) := by
  cases redis with
  | none => exact .fault 1 _
  | some redis => exact .perform _

theorem openRedis_within : EndsWithin 3 (openRedis config) := by
  have connects : EndsWithin 2 (btRedisConnect config.redisSocketPath config.redisHost
      config.redisPort (config.redisTimeout * 1000) config.redisDb) := by
    apply EndsWithin.bind (.perform _)
    intro answer
    cases answer with
    | noMemory => exact .done 1 _
    | failed conn => exact .bind (.perform _) fun _ => .done 0 _
    | opened conn => exact .bind (redisCommand_within _ _) fun _ => .done 0 _
  apply EndsWithin.bind connects
  intro opened
  exact .bind (.perform _) fun _ => .done 0 _

/-- A job looks for its context, tests it and opens a new one at most once. -/
theorem acquireRedis_within : EndsWithin 5 (acquireRedis config) := by
  apply EndsWithin.bind (.perform _)
  intro kept
  cases kept with
  | none => exact (openRedis_within config).mono (by decide)
  | some kept =>
      have pings : EndsWithin 1 (btRedisPing (some kept)) := by
        apply EndsWithin.bind (redisCommand_within _ _)
        intro reply
        cases reply <;> exact .done 0 _
      apply EndsWithin.bind pings
      intro ok
      cases ok with
      | true => exact .done 3 _
      | false => exact openRedis_within config

theorem btValidRequest_within (req : BtReq) (packetlen : Nat) :
    EndsWithin 1 (btValidRequest host redis config req packetlen) := by
  have connection : EndsWithin 1 (btConnectionValid host redis config req.connectionId) := by
    apply EndsWithin.bind (redisCommand_within _ _)
    intro reply
    cases reply <;> exact .done 0 _
  rw [btValidRequest]
  split
  · exact .done 1 _
  · split
    · exact connection
    · exact .done 1 _
  · split
    · exact connection
    · exact .done 1 _
  · exact .done 1 _

theorem btInfoHashBlacklisted_within (infoHashStr : Bytes) :
    EndsWithin 1 (btInfoHashBlacklisted redis config infoHashStr) := by
  rw [btInfoHashBlacklisted]
  split
  · apply EndsWithin.bind (redisCommand_within _ _)
    intro reply
    split <;> exact .done 0 _
  · apply EndsWithin.bind (redisCommand_within _ _)
    intro reply
    split <;> exact .done 0 _
  · exact .done 1 _

theorem btSendError_within (request : BtReq) (msg : Option Bytes) :
    EndsWithin 0 (btSendError host request msg) := by
  cases msg with
  | none => exact .fault 0 _
  | some msg => exact .ofOption 0 _ _

theorem randomBytes_within (count : Nat) : EndsWithin count (randomBytes count) := by
  induction count with
  | zero => exact .done 0 _
  | succ count ih =>
      apply EndsWithin.bind (.perform _)
      intro value
      exact .bind_zero ih fun _ => .done 0 _

theorem btHandleConnection_within (request : BtReq) (buflen : Nat) :
    EndsWithin 10 (btHandleConnection host request config buflen redis) := by
  apply EndsWithin.bind (btValidRequest_within ..)
  intro valid
  cases valid with
  | false => exact .done 9 _
  | true =>
      have draws : EndsWithin 8 (btRandomInt64 host) :=
        .bind_zero (randomBytes_within 8) fun _ => .done 0 _
      apply EndsWithin.bind draws
      intro connectionId
      have inserts : EndsWithin 1 (btInsertConnection host redis config connectionId) :=
        .bind_zero (redisCommand_within ..) fun _ => .done 0 _
      apply EndsWithin.bind_zero inserts
      intro _
      exact .bind_zero (.ofOption 0 _ _) fun _ => .done 0 _

/-- The address is read before the record is stored, and a promotion is counted
after it was made. -/
theorem btUpdatePeerList_within (announceRequest : BtAnnounceReq) (clientAddr : SockaddrPtr)
    (infoHashStr : Bytes) (isSeeder : Bool) :
    EndsWithin 3 (btUpdatePeerList host redis config announceRequest clientAddr infoHashStr
      isSeeder) := by
  have inserts : EndsWithin 3 (do
      let sockaddr ← perform (Op.loadSockaddr clientAddr)
      let peer ← btNewPeer announceRequest (ntohl host sockaddr.sAddr)
      btInsertPeer host redis config infoHashStr announceRequest.peerId peer isSeeder) := by
    apply EndsWithin.bind (.perform _)
    intro address
    apply EndsWithin.bind (.bind_zero (.perform _) fun _ => .done 0 _)
    intro peer
    exact .bind_zero (redisCommand_within ..) fun _ => .done 0 _
  rw [btUpdatePeerList]
  split
  · have removes : EndsWithin 1 (btRemovePeer redis config infoHashStr announceRequest.peerId
        isSeeder) :=
      .bind_zero (redisCommand_within ..) fun _ => .done 0 _
    exact removes.mono (Nat.le_add_left 1 2)
  · have promotes : EndsWithin 2 (btPromotePeer redis config infoHashStr
        announceRequest.peerId) := by
      apply EndsWithin.bind (redisCommand_within ..)
      intro reply
      cases reply with
      | none => exact .done 1 _
      | some reply =>
          dsimp only
          split
          · exact .done 1 _
          · exact .bind_zero (redisCommand_within ..) fun _ => .done 0 _
    exact promotes.mono (Nat.le_succ 2)
  · exact inserts
  · exact inserts
  · exact .done 3 _

theorem shuffleFrom_within (rounds i : Nat) (elements : List Bytes) :
    EndsWithin rounds (shuffleFrom rounds i elements) := by
  induction rounds generalizing i elements with
  | zero => exact .done 0 _
  | succ rounds ih =>
      have draws (min max : BitVec 32) : EndsWithin 1 (randr min max) :=
        .bind_zero (.perform _) fun _ => .done 0 _
      apply EndsWithin.bind (draws _ _)
      intro j
      have continues := ih (i + 1)
      cases swapElements elements i j with
      | none => exact .fault rounds _
      | some swapped => exact continues swapped

theorem fetchPeers_within (keys : List Bytes) (list : List BtPeerAddr) (count : Nat) :
    EndsWithin keys.length (fetchPeers host redis keys list count) := by
  induction keys generalizing list count with
  | nil => exact .done 0 _
  | cons key rest ih =>
      apply EndsWithin.bind (redisCommand_within ..)
      intro reply
      cases reply with
      | none => exact ih list count
      | some reply =>
          dsimp only
          rw [readPeerAddr]
          split
          · exact .fault _ _
          · split
            · exact ih _ _
            · exact .fault _ _

/-- One listing, and for each peer that is wanted one exchange and one record. -/
theorem btPeerList_within (infoHashStr : Bytes) {numWant : BitVec 32} {wanted : Nat}
    (asked : numWant.toInt = wanted) (peerCount : Nat) (seeder : Bool) :
    EndsWithin (wanted + wanted + 1)
      (btPeerList host redis config infoHashStr numWant peerCount seeder) := by
  apply EndsWithin.bind (redisCommand_within ..)
  intro reply
  cases reply with
  | none => exact .done _ _
  | some reply =>
      cases reply with
      | array elements =>
          dsimp only
          rw [upperIndex_eq elements.length asked, Int.toNat_natCast]
          apply EndsWithin.bind ((shuffleFrom_within ..).mono (Nat.min_le_left ..))
          intro shuffled
          apply (fetchPeers_within host redis _ [] 0).mono
          rw [List.length_take]
          omega
      | _ => exact .done _ _

theorem selectPeers_within (infoHashStr : Bytes) {numWant : BitVec 32} {wanted : Nat}
    (asked : numWant.toInt = wanted) (isSeeder : Bool) :
    EndsWithin (4 * wanted + 2)
      (selectPeers host redis config infoHashStr numWant isSeeder) := by
  have both : 4 * wanted + 2 = wanted + wanted + 1 + (wanted + wanted + 1) := by omega
  rw [both]
  apply EndsWithin.bind (btPeerList_within host config redis infoHashStr asked 0 _)
  intro opposite
  dsimp only
  split
  · rename_i fewer
    have found : opposite.2 ≤ wanted := by omega
    have remaining := toInt_remaining asked found
    apply EndsWithin.bind_zero
    · apply (btPeerList_within host config redis infoHashStr remaining 0 isSeeder).mono
      omega
    · intro siblings
      split <;> exact .done 0 _
  · exact .done _ _

theorem btGetTorrentStats_within (infoHashStr : Bytes) (stats : BtTorrentStats) :
    EndsWithin 3 (btGetTorrentStats redis config infoHashStr stats) := by
  have free (var : ReplyVar) : EndsWithin 0 var.free := by
    rcases var.free_cases with ⟨after, released⟩ | unowned
    · rw [released]
      exact .done 0 _
    · rw [unowned]
      exact .fault 0 _
  refine EndsWithin.bind_zero ?_ fun _ => .done 0 _
  apply EndsWithin.bind (redisCommand_within ..)
  intro seeders
  apply EndsWithin.bind (free _)
  intro pointer
  apply EndsWithin.bind (redisCommand_within ..)
  intro leechers
  apply EndsWithin.bind (free _)
  intro pointer
  apply EndsWithin.bind_zero (redisCommand_within ..)
  intro downloads
  exact .bind_zero (free _) fun _ => .done 0 _

theorem answerAnnounce_within (request : BtReq) (announceRequest : BtAnnounceReq)
    (infoHashStr : Bytes) (isSeeder : Bool) :
    EndsWithin (4 * config.announceMaxNumwant.toNat + 5)
      (answerAnnounce host request config announceRequest infoHashStr isSeeder redis) := by
  have asked := toInt_clampNumWant config announceRequest.numWant
  have few := wantedPeers_le config announceRequest.numWant
  have total : 3 + (4 * wantedPeers config announceRequest.numWant + 2) ≤
      4 * config.announceMaxNumwant.toNat + 5 := by
    omega
  apply EndsWithin.mono _ total
  apply EndsWithin.bind (selectPeers_within host config redis infoHashStr asked isSeeder)
  intro selected
  apply EndsWithin.bind_zero (btGetTorrentStats_within ..)
  intro stats
  apply EndsWithin.bind_zero (.ofOption 0 _ _)
  intro leechers
  apply EndsWithin.bind_zero (.ofOption 0 _ _)
  intro seeders
  exact .ofOption 0 _ _

theorem btHandleAnnounce_within (request : BtReq) (buff : RecvBuffer) (buflen : Nat)
    (clientAddr : SockaddrPtr) :
    EndsWithin (4 * config.announceMaxNumwant.toNat + 10)
      (btHandleAnnounce host request config buff buflen clientAddr redis) := by
  apply EndsWithin.bind (btValidRequest_within ..)
  intro valid
  cases valid with
  | false => exact .done _ _
  | true =>
      apply EndsWithin.bind (btInfoHashBlacklisted_within ..)
      intro refused
      cases refused with
      | true =>
          apply EndsWithin.mono _ (Nat.zero_le _)
          exact .bind_zero (btSendError_within ..) fun _ => .done 0 _
      | false =>
          apply EndsWithin.bind (btUpdatePeerList_within ..)
          intro _
          exact .bind_zero (answerAnnounce_within ..) fun _ => .done 0 _

theorem scrapeEach_within (hashes : List Bytes) (entries : List BtScrapeEntry) :
    EndsWithin (4 * hashes.length) (scrapeEach redis config hashes entries) := by
  induction hashes generalizing entries with
  | nil => exact .done 0 _
  | cons hash rest ih =>
      have one : 4 * (hash :: rest).length = 4 * rest.length + 3 + 1 := by
        rw [List.length_cons]
        omega
      rw [one]
      apply EndsWithin.bind (btInfoHashBlacklisted_within ..)
      intro refused
      cases refused with
      | true => exact .done _ _
      | false =>
          have counts : EndsWithin 3 (scrapeEntry redis config
              (cString (btBytearrayToHexarray hash))) := by
            apply EndsWithin.bind_zero (btGetTorrentStats_within ..)
            intro stats
            apply EndsWithin.bind_zero (.ofOption 0 _ _)
            intro seeders
            apply EndsWithin.bind_zero (.ofOption 0 _ _)
            intro downloads
            exact .bind_zero (.ofOption 0 _ _) fun _ => .done 0 _
          apply EndsWithin.bind counts
          intro stats
          exact ih _

/-- What fits the member of a scrape request are eight info hashes at most. -/
theorem BtScrapeReq.few_of_read {buff : RecvBuffer} {buflen : Nat} {request : BtScrapeReq}
    (read : btReadScrapeRequestData host buff buflen = some request) :
    request.infoHashLen ≤ 8 ∧ request.infoHashLen * 20 ≤ request.infoHash.length := by
  rw [btReadScrapeRequestData] at read
  split at read
  · rename_i within
    have same := Option.some.inj read
    subst same
    rw [RecvBuffer.length_slice]
    exact ⟨Nat.div_le_of_le_mul within, Nat.div_mul_le_self _ 20⟩
  · cases read

/-- The loop of a scrape that was read is the plain one. -/
theorem scrapeLoop_of_read {buff : RecvBuffer} {buflen : Nat} {request : BtScrapeReq}
    (read : btReadScrapeRequestData host buff buflen = some request) :
    scrapeLoop redis config request 256 0 [] = scrapeEach redis config request.hashes [] := by
  obtain ⟨few, held⟩ := BtScrapeReq.few_of_read host read
  exact scrapeLoop_eq (Nat.lt_of_le_of_lt few (by decide)) held redis

theorem btHandleScrape_within (request : BtReq) (buff : RecvBuffer) (buflen : Nat) :
    EndsWithin 33 (btHandleScrape host request config buff buflen redis) := by
  apply EndsWithin.bind (btValidRequest_within ..)
  intro valid
  cases valid with
  | false => exact .done 32 _
  | true =>
      change EndsWithin 32 (Program.ofOption .overrun _ >>= fun scrapeRequest =>
        some <$> answerScrape host request config scrapeRequest redis)
      cases read : btReadScrapeRequestData host buff buflen with
      | none => exact .fault 32 _
      | some scrapeRequest =>
          obtain ⟨few, -⟩ := BtScrapeReq.few_of_read host read
          have loop : EndsWithin 32 (scrapeLoop redis config scrapeRequest 256 0 []) := by
            rw [scrapeLoop_of_read host config redis read]
            apply (scrapeEach_within config redis scrapeRequest.hashes []).mono
            rw [BtScrapeReq.length_hashes]
            omega
          rw [Program.ofOption_some, Program.done_bind]
          apply EndsWithin.bind_zero
          · apply EndsWithin.bind_zero loop
            intro entries
            cases entries with
            | none => exact btSendError_within ..
            | some entries => exact .ofOption 0 _ _
          · intro _
            exact .done 0 _

/-- The number of operations no job exceeds. -/
def jobLimit (config : BtConfig) : Nat := 4 * config.announceMaxNumwant.toNat + 39

theorem dispatch_within (params : BtJobParams) (request : BtReq) (error : Option Bytes) :
    EndsWithin (4 * config.announceMaxNumwant.toNat + 33)
      (dispatch host config params request error redis) := by
  rw [dispatch]
  split
  · exact (btHandleConnection_within ..).mono (by omega)
  · exact (btHandleAnnounce_within ..).mono (by omega)
  · exact (btHandleScrape_within ..).mono (by omega)
  · apply EndsWithin.mono _ (Nat.zero_le _)
    exact .bind_zero (btSendError_within ..) fun _ => .done 0 _
  · exact .done _ _

/-- Every job ends, whatever the environment answers. -/
theorem btRequestProcessor_within (params : BtJobParams) :
    EndsWithin (jobLimit config) (btRequestProcessor host config params) := by
  have total : jobLimit config = 1 + (4 * config.announceMaxNumwant.toNat + 33) + 5 := by
    rw [jobLimit]
    omega
  rw [total]
  apply EndsWithin.bind (acquireRedis_within config)
  intro redis
  have responds (response : Option Block) : EndsWithin 1 (respond params response) := by
    cases response with
    | none => exact .done 1 _
    | some data => exact .perform _
  cases redis with
  | none => exact .bind (dispatch_within ..) responds
  | some redis => exact .bind (dispatch_within ..) responds

/-! ## Responses -/

/-- Operations that send a response. -/
def Op.Responds : Op → Prop
  | .sendto .. => True
  | _ => False

/-- The size no response exceeds: the longest error, or an announce with as many
peers as the configuration allows. -/
def responseLimit (config : BtConfig) : Nat :=
  max 125 (20 + 6 * config.announceMaxNumwant.toNat)

theorem fetchPeers_results (keys : List Bytes) {list : List BtPeerAddr} {count : Nat}
    (counted : count = list.length) :
    Results (fun result => result.2 = result.1.length ∧ result.2 ≤ count + keys.length)
      (fetchPeers host redis keys list count) := by
  induction keys generalizing list count with
  | nil => exact ⟨counted, Nat.le_refl _⟩
  | cons key rest ih =>
      apply Results.bind (.any _)
      intro reply _
      cases reply with
      | none =>
          apply Program.Follows.mono _ (ih counted)
          intro result _ holds
          refine ⟨holds.1, holds.2.trans ?_⟩
          simp
      | some reply =>
          apply Results.bind (.any _)
          intro addr _
          have longer : count + 1 = (addr :: list).length := by rw [counted, List.length_cons]
          apply Program.Follows.mono _ (ih longer)
          intro result _ holds
          refine ⟨holds.1, holds.2.trans ?_⟩
          rw [List.length_cons]
          omega

theorem btPeerList_results (infoHashStr : Bytes) {numWant : BitVec 32} {wanted : Nat}
    (asked : numWant.toInt = wanted) (seeder : Bool) :
    Results (fun result => result.2 = result.1.length ∧ result.2 ≤ wanted)
      (btPeerList host redis config infoHashStr numWant 0 seeder) := by
  apply Results.bind (.any _)
  intro reply _
  cases reply with
  | none => exact ⟨rfl, Nat.zero_le _⟩
  | some reply =>
      cases reply with
      | array elements =>
          apply Results.bind (.any _)
          intro shuffled _
          apply Program.Follows.mono _ (fetchPeers_results host redis _ rfl)
          intro result _ holds
          refine ⟨holds.1, holds.2.trans ?_⟩
          rw [upperIndex_eq elements.length asked, Int.toNat_natCast, List.length_take,
            List.length_nil]
          omega
      | _ => exact ⟨rfl, Nat.zero_le _⟩

theorem selectPeers_results (infoHashStr : Bytes) {numWant : BitVec 32} {wanted : Nat}
    (asked : numWant.toInt = wanted) (isSeeder : Bool) :
    Results (fun result => result.2 = result.1.length ∧ result.2 ≤ wanted)
      (selectPeers host redis config infoHashStr numWant isSeeder) := by
  apply Results.bind (btPeerList_results host config redis infoHashStr asked (!isSeeder))
  intro opposite holds
  dsimp only
  split
  · have remaining := toInt_remaining asked holds.2
    apply Results.bind (btPeerList_results host config redis infoHashStr remaining isSeeder)
    intro siblings others
    split
    · have counted : opposite.2 + siblings.2 = (opposite.1 ++ siblings.1).length := by
        rw [List.length_append, holds.1, others.1]
      have bounded : opposite.2 + siblings.2 ≤ wanted := by
        have first := holds.2
        have second := others.2
        omega
      exact ⟨counted, bounded⟩
    · exact holds
  · exact holds

theorem answerAnnounce_results (request : BtReq) (announceRequest : BtAnnounceReq)
    (infoHashStr : Bytes) (isSeeder : Bool) :
    Results (fun data => data.length ≤ responseLimit config)
      (answerAnnounce host request config announceRequest infoHashStr isSeeder redis) := by
  have asked := toInt_clampNumWant config announceRequest.numWant
  have few := wantedPeers_le config announceRequest.numWant
  apply Results.bind (selectPeers_results host config redis infoHashStr asked isSeeder)
  intro selected holds
  apply Results.bind (.any _)
  intro stats _
  apply Results.bind (.any _)
  intro leechers _
  apply Results.bind (.any _)
  intro seeders _
  rw [btSerializeAnnounceResponse_eq host _ _ _ holds.1.symm]
  have peers : (selected.1.flatMap (peerEntry host)).length = 6 * selected.2 := by
    rw [holds.1]
    simp [List.length_flatMap, Nat.mul_comm]
  have bounded := holds.2
  change (Block.ofBytes _).length ≤ _
  rw [Block.length_ofBytes, List.length_append, length_announceHeader, peers, responseLimit]
  omega

/-- Errors of the tracker have at most sixty characters. -/
theorem btSendError_results (request : BtReq) {msg : Bytes} (short : msg.length ≤ 60) :
    Results (fun data => data.length ≤ responseLimit config)
      (btSendError host request (some msg)) := by
  rw [btSendError_eq]
  change (errorBlock host request.transactionId msg).length ≤ _
  have size : (errorBlock host request.transactionId msg).length = msg.length + 65 := by
    simp [errorBlock]
    omega
  rw [size, responseLimit]
  omega

theorem scrapeEach_results (hashes : List Bytes) (entries : List BtScrapeEntry) :
    Results (fun result => ∀ found, result = some found →
        found.length = entries.length + hashes.length)
      (scrapeEach redis config hashes entries) := by
  induction hashes generalizing entries with
  | nil =>
      intro found returned
      cases returned
      rfl
  | cons hash rest ih =>
      apply Results.bind (.any _)
      intro refused _
      cases refused with
      | true => exact nofun
      | false =>
          apply Results.bind (.any _)
          intro stats _
          apply Program.Follows.mono _ (ih (stats :: entries))
          intro result _ counted found returned
          rw [counted found returned, List.length_cons, List.length_cons]
          omega

theorem answerScrape_results (request : BtReq) {buff : RecvBuffer} {buflen : Nat}
    {scrapeRequest : BtScrapeReq}
    (read : btReadScrapeRequestData host buff buflen = some scrapeRequest) :
    Results (fun data => data.length ≤ responseLimit config)
      (answerScrape host request config scrapeRequest redis) := by
  obtain ⟨few, -⟩ := BtScrapeReq.few_of_read host read
  rw [answerScrape, scrapeLoop_of_read host config redis read]
  apply Results.bind (scrapeEach_results config redis scrapeRequest.hashes [])
  intro result counted
  cases result with
  | none => exact btSendError_results host config request (by decide)
  | some entries =>
      have total := counted entries rfl
      rw [BtScrapeReq.length_hashes, List.length_nil] at total
      dsimp only
      rw [btSerializeScrapeResponse_eq]
      have size : (entries.reverse.flatMap (statsEntry host)).length = 12 * entries.length := by
        simp [List.length_flatMap, Nat.mul_comm]
      change (Block.ofBytes _).length ≤ _
      rw [Block.length_ofBytes, List.length_append, length_scrapeHeader, size, responseLimit]
      omega

/-- Every response a handler returns is short. -/
theorem dispatch_results (params : BtJobParams) (request : BtReq) {error : Option Bytes}
    (short : ∀ msg ∈ error, msg.length ≤ 60) :
    Results (fun response => ∀ data ∈ response, data.length ≤ responseLimit config)
      (dispatch host config params request error redis) := by
  have answers {program : Worker Block}
      (results : Results (fun data => data.length ≤ responseLimit config) program) :
      Results (fun response => ∀ data ∈ response, data.length ≤ responseLimit config)
        (some <$> program) := by
    apply Results.bind results
    intro data bounded other member
    cases member
    exact bounded
  have ignores : Results (fun response : Option Block => ∀ data ∈ response,
      data.length ≤ responseLimit config) (.done none : Worker (Option Block)) :=
    fun _ => nofun
  rw [dispatch]
  split
  · apply Results.bind (.any _)
    intro valid _
    cases valid with
    | false => exact ignores
    | true =>
        apply Results.bind (.any _)
        intro connectionId _
        apply Results.bind (.any _)
        intro _ _
        apply answers
        rw [btSerializeConnectionResponse_eq]
        change (connectionBlock host _).length ≤ _
        simp [connectionBlock, responseLimit]
  · apply Results.bind (.any _)
    intro valid _
    cases valid with
    | false => exact ignores
    | true =>
        apply Results.bind (.any _)
        intro refused _
        cases refused with
        | true => exact answers (btSendError_results host config request (by decide))
        | false =>
            apply Results.bind (.any _)
            intro _ _
            exact answers (answerAnnounce_results ..)
  · apply Results.bind (.any _)
    intro valid _
    cases valid with
    | false => exact ignores
    | true =>
        have reads : Results (fun scrapeRequest =>
            btReadScrapeRequestData host params.buff params.buflen = some scrapeRequest)
            (Program.ofOption .overrun
              (btReadScrapeRequestData host params.buff params.buflen) : Worker BtScrapeReq) :=
          .ofOption fun _ read => read
        apply Results.bind reads
        intro scrapeRequest read
        exact answers (answerScrape_results host config redis request read)
  · cases error with
    | none => trivial
    | some msg => exact answers (btSendError_results host config request (short msg rfl))
  · exact ignores

/-- Operations that send nothing but short responses. -/
def Op.Brief (config : BtConfig) : Op → Prop
  | .sendto _ data => data.length ≤ responseLimit config
  | _ => True

variable (params : BtJobParams)

theorem acquireRedis_not_responds : ¬(acquireRedis config).MayPerform Op.Responds := by
  apply (acquireRedis_connects config).not_mayPerform
  intro op connects
  cases op with
  | sendto address data => exact connects.elim
  | _ => exact id

theorem dispatch_not_responds (context : Context) (request : BtReq) (error : Option Bytes) :
    ¬(dispatch host config params request error (some context)).MayPerform Op.Responds := by
  apply (dispatch_handles host config context params request error).not_mayPerform
  intro op handles
  cases op with
  | sendto address data => exact handles.elim
  | _ => exact id

theorem respond_once (response : Option Block) :
    (respond params response).AtMostOnce Op.Responds := by
  cases response with
  | none => trivial
  | some data => exact .perform _

/-- A job sends at most one response. -/
theorem btRequestProcessor_responds :
    (btRequestProcessor host config params).AtMostOnce Op.Responds := by
  rw [btRequestProcessor_eq]
  apply AtMostOnce.bind_of_never (acquireRedis_not_responds config)
  intro redis
  cases redis with
  | none =>
      rw [Ledger.answerWith_none]
      exact respond_once ..
  | some redis =>
      apply AtMostOnce.bind_of_never (dispatch_not_responds host config params redis _ _)
      intro response
      exact respond_once ..

/-- Whatever a job sends is short. -/
theorem btRequestProcessor_brief :
    Performs (Op.Brief config) (fun _ => True) (btRequestProcessor host config params) := by
  have responds {response : Option Block}
      (short : ∀ data ∈ response, data.length ≤ responseLimit config) :
      Performs (Op.Brief config) (fun _ => True) (respond params response) := by
    cases response with
    | none => exact .done _
    | some data => exact Performs.perform_iff.mpr (short data rfl)
  have connects : Performs (Op.Brief config) (fun _ => True) (acquireRedis config) := by
    apply Performs.mono (acquireRedis_connects config)
    · intro op connects
      cases op with
      | sendto address data => exact connects.elim
      | _ => trivial
    · exact fun _ => False.elim
  rw [btRequestProcessor_eq]
  apply Performs.bind connects
  intro redis
  cases redis with
  | none =>
      rw [Ledger.answerWith_none]
      apply responds
      intro data member
      have results := btSendError_results host config (btReadRequestData host params.buff)
        (by decide : storageUnavailable.length ≤ 60)
      rw [btSendError_eq] at results
      cases member
      exact results
  | some redis =>
      have handles : Performs (Op.Brief config) (fun _ => True)
          (dispatch host config params (btReadRequestData host params.buff) none (some redis)) := by
        apply Performs.mono (dispatch_handles ..)
        · intro op handles
          cases op with
          | sendto address data => exact handles.elim
          | _ => trivial
        · exact fun _ _ => trivial
      have short (msg : Bytes) (member : msg ∈ (none : Option Bytes)) : msg.length ≤ 60 := by
        cases member
      exact (dispatch_results host config (some redis) params _ short).performs_bind handles
        fun _ => responds

/-! ## Decisions -/

/-- Commands that decide what a job does to the database.  The increment of a
counter is a consequence of one of them. -/
def Redis.Command.Decides : Redis.Command → Prop
  | .setex .. | .del _ | .rename .. => True
  | _ => False

/-- Operations that decide what a job does to the database. -/
def Op.Decides : Op → Prop
  | .redisCommand _ request => request.Decides
  | _ => False

/-- Looking decides nothing. -/
theorem Worker.Observes.not_decides {α : Type} {program : Worker α}
    (observes : program.Observes) : ¬program.MayPerform Op.Decides := by
  apply Performs.not_mayPerform observes
  intro op observes
  cases op with
  | redisCommand redis request =>
      intro decides
      cases request with
      | setex _ _ _ | del _ | rename _ _ => exact observes
      | _ => exact decides
  | _ => exact id

theorem redisCommand_once (kind : Op → Prop) (request : Redis.Command) :
    (redisCommand redis request).AtMostOnce kind := by
  cases redis with
  | none => trivial
  | some redis => exact .perform _

theorem redisCommand_not_decides {request : Redis.Command} (harmless : ¬request.Decides) :
    ¬(redisCommand redis request).MayPerform Op.Decides := by
  cases redis with
  | none => exact id
  | some redis =>
      intro may
      rcases may with decides | ⟨_, later⟩
      · exact harmless decides
      · exact later

theorem btUpdatePeerList_decides (announceRequest : BtAnnounceReq) (clientAddr : SockaddrPtr)
    (infoHashStr : Bytes) (isSeeder : Bool) :
    (btUpdatePeerList host redis config announceRequest clientAddr infoHashStr
      isSeeder).AtMostOnce Op.Decides := by
  have inserts : (do
      let sockaddr ← perform (Op.loadSockaddr clientAddr)
      let peer ← btNewPeer announceRequest (ntohl host sockaddr.sAddr)
      btInsertPeer host redis config infoHashStr announceRequest.peerId peer
        isSeeder).AtMostOnce Op.Decides := by
    have reads : ¬(perform (Op.loadSockaddr clientAddr)).MayPerform Op.Decides := by
      rintro (decides | ⟨_, later⟩)
      · exact decides
      · exact later
    have fills (sockaddr : BitVec 32) :
        ¬(btNewPeer announceRequest sockaddr).MayPerform Op.Decides := by
      rintro (decides | ⟨_, later⟩)
      · exact decides
      · exact later
    apply AtMostOnce.bind_of_never reads
    intro address
    apply AtMostOnce.bind_of_never (fills _)
    intro peer
    exact .bind_never (redisCommand_once ..) fun _ => id
  rw [btUpdatePeerList]
  split
  · exact .bind_never (redisCommand_once ..) fun _ => id
  · apply AtMostOnce.bind_never (redisCommand_once ..)
    intro reply
    cases reply with
    | none => exact id
    | some reply =>
        dsimp only
        split
        · exact id
        · intro may
          rcases may.of_bind with increments | ⟨_, later⟩
          · exact redisCommand_not_decides redis id increments
          · exact later
  · exact inserts
  · exact inserts
  · trivial

/-- A job decides once. -/
theorem btRequestProcessor_decides :
    (btRequestProcessor host config params).AtMostOnce Op.Decides := by
  have responds (response : Option Block) : ¬(respond params response).MayPerform Op.Decides := by
    cases response with
    | none => exact id
    | some data =>
        intro may
        rcases may with decides | ⟨_, later⟩
        · exact decides
        · exact later
  rw [btRequestProcessor_eq]
  apply AtMostOnce.bind_of_never (acquireRedis_observes config).not_decides
  intro redis
  cases redis with
  | none =>
      rw [Ledger.answerWith_none]
      exact .of_not_mayPerform (responds _)
  | some redis =>
      apply AtMostOnce.bind_never _ responds
      rw [dispatch]
      split
      · apply AtMostOnce.bind_of_never (btValidRequest_observes ..).not_decides
        intro valid
        cases valid with
        | false => trivial
        | true =>
            apply AtMostOnce.bind_of_never (btRandomInt64_observes host).not_decides
            intro connectionId
            have inserts : (btInsertConnection host (some redis) config connectionId).AtMostOnce
                Op.Decides := .bind_never (redisCommand_once ..) fun _ => id
            apply AtMostOnce.bind_never inserts
            intro _
            rw [btSerializeConnectionResponse_eq]
            exact id
      · apply AtMostOnce.bind_of_never (btValidRequest_observes ..).not_decides
        intro valid
        cases valid with
        | false => trivial
        | true =>
            apply AtMostOnce.bind_of_never (btInfoHashBlacklisted_observes ..).not_decides
            intro refused
            cases refused with
            | true =>
                rw [btSendError_eq]
                trivial
            | false =>
                apply AtMostOnce.bind_never (btUpdatePeerList_decides ..)
                intro _ may
                rcases may.of_bind with answers | ⟨_, later⟩
                · exact (answerAnnounce_observes ..).not_decides answers
                · exact later
      · exact .of_not_mayPerform (btHandleScrape_observes ..).not_decides
      · trivial
      · trivial

end BtTracker
