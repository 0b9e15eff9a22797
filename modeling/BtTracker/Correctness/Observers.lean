import BtTracker.Foundation.Exchange
import BtTracker.Semantics.World

/-!
# Code that only looks

Everything a worker does except storing a connection, updating the peer list
and sending its response leaves the database and the socket alone, and it reads
no record but those it has just listed.  The proofs follow the code: sequencing
and branching preserve the property, and the loops are by induction on what
remains to be done.
-/

namespace BtTracker

open BtTracker.Foundation

variable (host : Host) (redis : Option Context) (config : BtConfig)

open Worker (Browses)

section Browses

variable {known : Bytes → Prop}

theorem redisCommand_browses {request : Redis.Command} (readOnly : request.ReadOnly)
    (reads : ∀ key, request = .get key → known key) :
    Browses known (redisCommand redis request) := by
  cases redis with
  | none => exact .fault (by decide)
  | some redis =>
      refine .perform fun listed => ?_
      cases request with
      | get key => exact .inl (reads key rfl)
      | _ => exact readOnly

theorem btRedisConnect_browses (unixSock : Option Bytes) (redisHost : Bytes)
    (port : BitVec 16) (timeout : BitVec 32) (db : BitVec 16) :
    Browses known (btRedisConnect unixSock redisHost port timeout db) := by
  refine .bind (.perform fun _ => trivial) fun answer => ?_
  cases answer with
  | noMemory => exact .done _
  | failed conn => exact .bind (.perform fun _ => trivial) fun _ => .done _
  | opened conn => exact .bind (redisCommand_browses _ trivial nofun) fun _ => .done _

theorem openRedis_browses : Browses known (openRedis config) :=
  .bind (btRedisConnect_browses ..) fun _ => .bind (.perform fun _ => trivial) fun _ => .done _

theorem btRedisPing_browses : Browses known (btRedisPing redis) := by
  refine .bind (redisCommand_browses _ trivial nofun) fun reply => ?_
  cases reply <;> exact .done _

theorem acquireRedis_browses : Browses known (acquireRedis config) := by
  refine .bind (.perform fun _ => trivial) fun redis => ?_
  cases redis with
  | none => exact openRedis_browses config
  | some redis =>
      refine .bind (btRedisPing_browses _) fun ok => ?_
      cases ok with
      | true => exact .done _
      | false => exact openRedis_browses config

theorem btConnectionValid_browses (connectionId : BitVec 64)
    (knows : known (connectionKey host config connectionId)) :
    Browses known (btConnectionValid host redis config connectionId) := by
  refine .bind (redisCommand_browses _ trivial ?_) fun reply => ?_
  · rintro key equal
    cases equal
    exact knows
  · cases reply <;> exact .done _

theorem btValidRequest_browses (req : BtReq) (packetlen : Nat)
    (knows : known (connectionKey host config req.connectionId)) :
    Browses known (btValidRequest host redis config req packetlen) := by
  rw [btValidRequest]
  split
  · exact .done _
  · split
    · exact btConnectionValid_browses host redis config _ knows
    · exact .done _
  · split
    · exact btConnectionValid_browses host redis config _ knows
    · exact .done _
  · exact .done _

theorem btInfoHashBlacklisted_browses (infoHashStr : Bytes) :
    Browses known (btInfoHashBlacklisted redis config infoHashStr) := by
  rw [btInfoHashBlacklisted]
  split
  · refine .bind (redisCommand_browses _ trivial nofun) fun reply => ?_
    split <;> exact .done _
  · refine .bind (redisCommand_browses _ trivial nofun) fun reply => ?_
    split <;> exact .done _
  · exact .done _

theorem btSendError_browses (request : BtReq) (msg : Bytes) :
    Browses known (btSendError host request (some msg)) :=
  .ofOption (by decide) _

theorem randomBytes_browses (count : Nat) : Browses known (randomBytes count) := by
  induction count with
  | zero => exact .done _
  | succ count ih =>
      exact .bind (.perform fun _ => trivial) fun _ => .bind ih fun _ => .done _

theorem btRandomInt64_browses : Browses known (btRandomInt64 host) :=
  .bind (randomBytes_browses 8) fun _ => .done _

private theorem free_browses (var : ReplyVar) : Browses known var.free := by
  rcases var.free_cases with ⟨after, released⟩ | unowned
  · rw [released]
    exact .done _
  · rw [unowned]
    exact .fault (by decide)

theorem btGetTorrentStats_browses (infoHashStr : Bytes) (stats : BtTorrentStats) :
    Browses known (btGetTorrentStats redis config infoHashStr stats) :=
  have replies : Browses known
      (torrentStatsReplies (some .stale) redis config infoHashStr stats) :=
    .bind (redisCommand_browses _ trivial nofun) fun _ =>
      .bind (free_browses _) fun _ =>
        .bind (redisCommand_browses _ trivial nofun) fun _ =>
          .bind (free_browses _) fun _ =>
            .bind (redisCommand_browses _ trivial nofun) fun _ =>
              .bind (free_browses _) fun _ => .done _
  .bind replies fun _ => .done _

/-! ### Peer lists -/

/-- What an exchange that does not leave the array does. -/
theorem swapElements_eq {elements swapped : List Bytes} {i : Nat} {j : BitVec 32}
    (swap : swapElements elements i j = some swapped) :
    swapped = exchange elements i j.toNat := by
  rw [swapElements] at swap
  cases first : elements[i]? with
  | none => simp [first] at swap
  | some aux =>
      cases second : elements[j.toNat]? with
      | none => simp [first, second] at swap
      | some other =>
          simp only [first, second, Option.bind_eq_bind, Option.bind_some] at swap
          split at swap
          · cases swap
          · cases swap
            rw [exchange, first, second]

/-- An exchange only rearranges. -/
theorem swapElements_perm {elements swapped : List Bytes} {i : Nat} {j : BitVec 32}
    (swap : swapElements elements i j = some swapped) : swapped.Perm elements := by
  rw [swapElements_eq swap]
  exact exchange_perm elements i j.toNat

/-- The shuffle performs no command, and it invents no key. -/
theorem shuffleFrom_follows {listed : List Bytes} (rounds i : Nat) {elements : List Bytes}
    (subset : elements ⊆ listed) :
    Program.Follows (browsing known) (fun result last => last = listed ∧ result ⊆ listed)
      listed (shuffleFrom rounds i elements) := by
  induction rounds generalizing i elements with
  | zero => exact ⟨rfl, subset⟩
  | succ rounds ih =>
      refine ⟨trivial, fun value => ?_⟩
      change Program.Follows _ _ listed (Program.ofOption .elementIndex (swapElements elements i
        (scaleRandom (BitVec.ofNat 32 i) (BitVec.ofNat 32 (elements.length - 1)) value)) >>=
          shuffleFrom rounds (i + 1))
      cases swap : swapElements elements i
          (scaleRandom (BitVec.ofNat 32 i) (BitVec.ofNat 32 (elements.length - 1)) value) with
      | none => exact fun equal => nomatch equal
      | some swapped =>
          exact ih (i + 1) (List.Subset.trans ((swapElements_perm swap).subset) subset)

theorem readPeerAddr_follows (listed : List Bytes) (reply : Redis.Reply) :
    Program.Follows (browsing known) (fun _ last => last = listed) listed
      (readPeerAddr host reply) := by
  rw [readPeerAddr]
  split
  · exact fun equal => nomatch equal
  · split
    · exact rfl
    · exact fun equal => nomatch equal

theorem fetchPeers_follows {listed keys : List Bytes} (subset : keys ⊆ listed)
    (list : List BtPeerAddr) (count : Nat) :
    Program.Follows (browsing known) (fun _ _ => True) listed
      (fetchPeers host redis keys list count) := by
  induction keys generalizing list count with
  | nil => trivial
  | cons key rest ih =>
      rw [List.cons_subset] at subset
      cases redis with
      | none => exact fun equal => nomatch equal
      | some redis =>
          refine ⟨.inr subset.1, fun reply => ?_⟩
          cases reply with
          | none => exact ih subset.2 list count
          | some reply =>
              change Program.Follows _ _ listed (readPeerAddr host reply >>= fun addr =>
                fetchPeers host (some redis) rest (addr :: list) (count + 1))
              refine Program.Follows.bind (readPeerAddr_follows host listed reply) ?_
              rintro addr last rfl
              exact ih subset.2 (addr :: list) (count + 1)

theorem btPeerList_browses (infoHashStr : Bytes) (numWant : BitVec 32) (peerCount : Nat)
    (seeder : Bool) :
    Browses known (btPeerList host redis config infoHashStr numWant peerCount seeder) := by
  refine ⟨fun listed => ?_⟩
  cases redis with
  | none => exact fun equal => nomatch equal
  | some redis =>
      refine ⟨trivial, fun reply => ?_⟩
      cases reply with
      | none => trivial
      | some reply =>
          cases reply with
          | array elements =>
              change Program.Follows _ _ elements
                (shuffleFrom (upperIndex elements.length numWant).toNat 0 elements >>=
                  fun shuffled => fetchPeers host (some redis) (shuffled.take _) [] 0)
              refine Program.Follows.bind
                (shuffleFrom_follows _ 0 (List.Subset.refl elements)) ?_
              rintro shuffled last ⟨rfl, subset⟩
              exact fetchPeers_follows host _
                (List.Subset.trans (List.take_subset _ _) subset) [] 0
          | _ => trivial

theorem selectPeers_browses (infoHashStr : Bytes) (numWant : BitVec 32) (isSeeder : Bool) :
    Browses known (selectPeers host redis config infoHashStr numWant isSeeder) := by
  refine .bind (btPeerList_browses ..) ?_
  rintro ⟨peers, peerCount⟩
  dsimp only
  split
  · refine .bind (btPeerList_browses ..) ?_
    rintro ⟨complement, complementCount⟩
    dsimp only
    split <;> exact .done _
  · exact .done _

/-! ### Handlers -/

theorem answerAnnounce_browses (request : BtReq) (announceRequest : BtAnnounceReq)
    (infoHashStr : Bytes) (isSeeder : Bool) :
    Browses known
      (answerAnnounce host request config announceRequest infoHashStr isSeeder redis) :=
  .bind (selectPeers_browses ..) fun _ =>
    .bind (btGetTorrentStats_browses ..) fun _ =>
      .bind (.ofOption (by decide) _) fun _ =>
        .bind (.ofOption (by decide) _) fun _ => .ofOption (by decide) _

theorem scrapeEntry_browses (infoHashStr : Bytes) :
    Browses known (scrapeEntry redis config infoHashStr) :=
  .bind (btGetTorrentStats_browses ..) fun _ =>
    .bind (.ofOption (by decide) _) fun _ =>
      .bind (.ofOption (by decide) _) fun _ =>
        .bind (.ofOption (by decide) _) fun _ => .done _

theorem scrapeLoop_browses (request : BtScrapeReq) (rounds : Nat) (i : BitVec 8)
    (entries : List BtScrapeEntry) :
    Browses known (scrapeLoop redis config request rounds i entries) := by
  induction rounds generalizing i entries with
  | zero => exact .fault (by decide)
  | succ rounds ih =>
      rw [scrapeLoop]
      split
      · refine .bind ?_ fun infoHash => ?_
        · rw [BtScrapeReq.hashAt]
          split
          · exact .done _
          · exact .fault (by decide)
        · refine .bind (btInfoHashBlacklisted_browses ..) fun refused => ?_
          cases refused with
          | true => exact .done _
          | false => exact .bind (scrapeEntry_browses ..) fun stats => ih _ _
      · exact .done _

theorem answerScrape_browses (request : BtReq) (scrapeRequest : BtScrapeReq) :
    Browses known (answerScrape host request config scrapeRequest redis) := by
  refine .bind (scrapeLoop_browses ..) fun entries => ?_
  cases entries with
  | none => exact btSendError_browses ..
  | some entries => exact .ofOption (by decide) _

theorem btHandleScrape_browses (request : BtReq) (buff : RecvBuffer) (buflen : Nat)
    (knows : known (connectionKey host config request.connectionId)) :
    Browses known (btHandleScrape host request config buff buflen redis) := by
  refine .bind (btValidRequest_browses _ _ _ _ _ knows) fun valid => ?_
  cases valid with
  | false => exact .done _
  | true =>
      exact .bind (.ofOption (by decide) _) fun scrapeRequest =>
        .bind (answerScrape_browses ..) fun _ => .done _

end Browses

/-! ## Code without effects -/

theorem acquireRedis_observes : (acquireRedis config).Observes :=
  (acquireRedis_browses config : Browses (fun _ => True) _).observes

theorem btValidRequest_observes (req : BtReq) (packetlen : Nat) :
    (btValidRequest host redis config req packetlen).Observes :=
  (btValidRequest_browses host redis config req packetlen trivial :
    Browses (fun _ => True) _).observes

theorem btInfoHashBlacklisted_observes (infoHashStr : Bytes) :
    (btInfoHashBlacklisted redis config infoHashStr).Observes :=
  (btInfoHashBlacklisted_browses redis config infoHashStr : Browses (fun _ => True) _).observes

theorem btRandomInt64_observes : (btRandomInt64 host).Observes :=
  (btRandomInt64_browses host : Browses (fun _ => True) _).observes

theorem answerAnnounce_observes (request : BtReq) (announceRequest : BtAnnounceReq)
    (infoHashStr : Bytes) (isSeeder : Bool) :
    (answerAnnounce host request config announceRequest infoHashStr isSeeder redis).Observes :=
  (answerAnnounce_browses host redis config request announceRequest infoHashStr isSeeder :
    Browses (fun _ => True) _).observes

theorem scrapeEntry_observes (infoHashStr : Bytes) :
    (scrapeEntry redis config infoHashStr).Observes :=
  (scrapeEntry_browses redis config infoHashStr : Browses (fun _ => True) _).observes

theorem answerScrape_observes (request : BtReq) (scrapeRequest : BtScrapeReq) :
    (answerScrape host request config scrapeRequest redis).Observes :=
  (answerScrape_browses host redis config request scrapeRequest :
    Browses (fun _ => True) _).observes

theorem btHandleScrape_observes (request : BtReq) (buff : RecvBuffer) (buflen : Nat) :
    (btHandleScrape host request config buff buflen redis).Observes :=
  (btHandleScrape_browses host redis config request buff buflen trivial :
    Browses (fun _ => True) _).observes

/-! ## Code without undefined behaviour -/

open BtTracker.Foundation.Program (FaultFree)

theorem redisCommand_faultFree (redis : Context) (request : Redis.Command) :
    (redisCommand (some redis) request).FaultFree :=
  FaultFree.perform _

theorem openRedis_faultFree : (openRedis config).FaultFree := by
  refine FaultFree.bind ?_ fun redis => ?_
  · refine FaultFree.bind (FaultFree.perform _) fun answer => ?_
    cases answer with
    | noMemory => trivial
    | failed conn => exact FaultFree.bind (FaultFree.perform _) fun _ => FaultFree.done _
    | opened conn =>
        exact FaultFree.bind (redisCommand_faultFree _ _) fun _ => FaultFree.done _
  · exact FaultFree.bind (FaultFree.perform _) fun _ => FaultFree.done _

/-- Connecting may fail, but it never goes wrong. -/
theorem acquireRedis_faultFree : (acquireRedis config).FaultFree := by
  refine FaultFree.bind (FaultFree.perform _) fun redis => ?_
  cases redis with
  | none => exact openRedis_faultFree config
  | some redis =>
      refine FaultFree.bind (FaultFree.bind (redisCommand_faultFree _ _) fun reply => ?_)
        fun ok => ?_
      · cases reply <;> trivial
      · cases ok with
        | true => trivial
        | false => exact openRedis_faultFree config

theorem btValidRequest_faultFree (redis : Context) (req : BtReq) (packetlen : Nat) :
    (btValidRequest host (some redis) config req packetlen).FaultFree := by
  have connection : (btConnectionValid host (some redis) config req.connectionId).FaultFree := by
    refine FaultFree.bind (redisCommand_faultFree _ _) fun reply => ?_
    cases reply <;> trivial
  rw [btValidRequest]
  split
  · trivial
  · split
    · exact connection
    · trivial
  · split
    · exact connection
    · trivial
  · trivial

theorem btInfoHashBlacklisted_faultFree (redis : Context) (infoHashStr : Bytes) :
    (btInfoHashBlacklisted (some redis) config infoHashStr).FaultFree := by
  rw [btInfoHashBlacklisted]
  split
  · refine FaultFree.bind (redisCommand_faultFree _ _) fun reply => ?_
    split <;> trivial
  · refine FaultFree.bind (redisCommand_faultFree _ _) fun reply => ?_
    split <;> trivial
  · trivial

end BtTracker
