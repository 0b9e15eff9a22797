import BtTracker.Model.Processor

/-!
# Which operations each function performs

The handlers work on the context they are given: they send commands on it, draw
random numbers and read the address of the sender, and that is all.  What they
send depends on their part of the work: looking up keys, asking for members of a
restriction, or updating the peer list.  Contexts are opened, tested, replaced
and released before a handler is entered and at no other time.
-/

namespace BtTracker

open BtTracker.Foundation

/-- Commands that look up a key. -/
def Redis.Command.Looks : Redis.Command → Prop
  | .get _ | .hget _ _ | .keys _ => True
  | _ => False

/-- Commands about the contents of a database. -/
def Redis.Command.Accesses : Redis.Command → Prop
  | .ping | .select _ => False
  | _ => True

/-- Operations of a handler that works on a context. -/
def Op.Handles (redis : Context) (sends : Redis.Command → Prop) : Op → Prop
  | .redisCommand context request => context = redis ∧ sends request
  | .rand | .malloc | .loadSockaddr _ => True
  | _ => False

/-- Operations that manage the context of a thread. -/
def Op.Connects : Op → Prop
  | .privateGet | .privateReplace _ | .redisConnect .. | .redisFree _ => True
  | .redisCommand _ .ping | .redisCommand _ (.select _) => True
  | _ => False

/-- A program that works on a context. -/
abbrev Worker.Handles {α : Type} (redis : Context) (sends : Redis.Command → Prop)
    (program : Worker α) : Prop :=
  Program.Performs (Op.Handles redis sends) (fun _ => True) program

open Worker (Handles)
open BtTracker.Foundation.Program (Performs)

theorem Worker.Handles.mono {α : Type} {redis : Context} {sends wider : Redis.Command → Prop}
    {program : Worker α} (handles : Handles redis sends program)
    (implies : ∀ request, sends request → wider request) : Handles redis wider program := by
  refine Performs.mono handles (fun op allowed => ?_) fun _ _ => trivial
  cases op with
  | redisCommand context request => exact ⟨allowed.1, implies request allowed.2⟩
  | _ => exact allowed

variable (host : Host) (config : BtConfig) (redis : Context)

theorem redisCommand_handles {sends : Redis.Command → Prop} {request : Redis.Command}
    (sent : sends request) : Handles redis sends (redisCommand (some redis) request) :=
  Performs.perform_iff.mpr ⟨rfl, sent⟩

/-! ## Looking up -/

theorem btValidRequest_handles (req : BtReq) (packetlen : Nat) :
    Handles redis Redis.Command.Looks
      (btValidRequest host (some redis) config req packetlen) := by
  have connection : Handles redis Redis.Command.Looks
      (btConnectionValid host (some redis) config req.connectionId) := by
    refine .bind (redisCommand_handles redis trivial) fun reply => ?_
    cases reply <;> exact .done _
  rw [btValidRequest]
  split
  · exact .done _
  · split
    · exact connection
    · exact .done _
  · split
    · exact connection
    · exact .done _
  · exact .done _

theorem shuffleFrom_handles (sends : Redis.Command → Prop) (rounds i : Nat)
    (elements : List Bytes) : Handles redis sends (shuffleFrom rounds i elements) := by
  induction rounds generalizing i elements with
  | zero => exact .done _
  | succ rounds ih =>
      refine .bind (.bind (Performs.perform_iff.mpr trivial) fun _ => .done _) fun j => ?_
      exact .bind (.ofOption trivial _) fun shuffled => ih (i + 1) shuffled

theorem randomBytes_handles (sends : Redis.Command → Prop) (count : Nat) :
    Handles redis sends (randomBytes count) := by
  induction count with
  | zero => exact .done _
  | succ count ih =>
      exact .bind (Performs.perform_iff.mpr trivial) fun _ => .bind ih fun _ => .done _

theorem fetchPeers_handles (keys : List Bytes) (list : List BtPeerAddr) (count : Nat) :
    Handles redis Redis.Command.Looks (fetchPeers host (some redis) keys list count) := by
  induction keys generalizing list count with
  | nil => exact .done _
  | cons key rest ih =>
      refine .bind (redisCommand_handles redis trivial) fun reply => ?_
      cases reply with
      | none => exact ih list count
      | some reply =>
          refine .bind ?_ fun addr => ih _ _
          rw [readPeerAddr]
          split
          · exact Performs.fault_iff.mpr trivial
          · split
            · exact .done _
            · exact Performs.fault_iff.mpr trivial

theorem btPeerList_handles (infoHashStr : Bytes) (numWant : BitVec 32) (peerCount : Nat)
    (seeder : Bool) :
    Handles redis Redis.Command.Looks
      (btPeerList host (some redis) config infoHashStr numWant peerCount seeder) := by
  refine .bind (redisCommand_handles redis trivial) fun reply => ?_
  cases reply with
  | none => exact .done _
  | some reply =>
      cases reply with
      | array elements =>
          exact .bind (shuffleFrom_handles redis _ _ 0 elements) fun shuffled =>
            fetchPeers_handles host redis _ [] 0
      | _ => exact .done _

theorem selectPeers_handles (infoHashStr : Bytes) (numWant : BitVec 32) (isSeeder : Bool) :
    Handles redis Redis.Command.Looks
      (selectPeers host (some redis) config infoHashStr numWant isSeeder) := by
  refine .bind (btPeerList_handles ..) fun opposite => ?_
  dsimp only
  split
  · refine .bind (btPeerList_handles ..) fun siblings => ?_
    split <;> exact .done _
  · exact .done _

/-- Releasing a reply is no operation of a worker. -/
theorem ReplyVar.free_performs {allowed : Op → Prop} (var : ReplyVar) :
    Performs allowed (fun _ => True) var.free := by
  rcases var.free_cases with ⟨after, released⟩ | unowned
  · rw [released]
    exact .done _
  · rw [unowned]
    exact Performs.fault_iff.mpr trivial

theorem btGetTorrentStats_handles (infoHashStr : Bytes) (stats : BtTorrentStats) :
    Handles redis Redis.Command.Looks
      (btGetTorrentStats (some redis) config infoHashStr stats) := by
  have replies : Handles redis Redis.Command.Looks
      (torrentStatsReplies (some .stale) (some redis) config infoHashStr stats) :=
    .bind (redisCommand_handles redis trivial) fun _ => .bind (ReplyVar.free_performs _) fun _ =>
      .bind (redisCommand_handles redis trivial) fun _ => .bind (ReplyVar.free_performs _) fun _ =>
        .bind (redisCommand_handles redis trivial) fun _ =>
          .bind (ReplyVar.free_performs _) fun _ => .done _
  exact .bind replies fun _ => .done _

theorem answerAnnounce_handles (request : BtReq) (announceRequest : BtAnnounceReq)
    (infoHashStr : Bytes) (isSeeder : Bool) :
    Handles redis Redis.Command.Looks (answerAnnounce host request config announceRequest
      infoHashStr isSeeder (some redis)) :=
  .bind (selectPeers_handles ..) fun _ => .bind (btGetTorrentStats_handles ..) fun _ =>
    .bind (.ofOption trivial _) fun _ => .bind (.ofOption trivial _) fun _ =>
      .ofOption trivial _

theorem scrapeEntry_handles (infoHashStr : Bytes) :
    Handles redis Redis.Command.Looks (scrapeEntry (some redis) config infoHashStr) :=
  .bind (btGetTorrentStats_handles ..) fun _ => .bind (.ofOption trivial _) fun _ =>
    .bind (.ofOption trivial _) fun _ => .bind (.ofOption trivial _) fun _ => .done _

/-! ## Asking and updating -/

theorem btInfoHashBlacklisted_handles (infoHashStr : Bytes) :
    Handles redis Redis.Command.Accesses
      (btInfoHashBlacklisted (some redis) config infoHashStr) := by
  rw [btInfoHashBlacklisted]
  split
  · refine .bind (redisCommand_handles redis trivial) fun reply => ?_
    split <;> exact .done _
  · refine .bind (redisCommand_handles redis trivial) fun reply => ?_
    split <;> exact .done _
  · exact .done _

theorem btUpdatePeerList_handles (announceRequest : BtAnnounceReq) (clientAddr : SockaddrPtr)
    (infoHashStr : Bytes) (isSeeder : Bool) :
    Handles redis (fun request => ¬request.ReadOnly)
      (btUpdatePeerList host (some redis) config announceRequest clientAddr infoHashStr
        isSeeder) := by
  have inserted : Handles redis (fun request => ¬request.ReadOnly) (do
      let sockaddr ← perform (Op.loadSockaddr clientAddr)
      let peer ← btNewPeer announceRequest (ntohl host sockaddr.sAddr)
      btInsertPeer host (some redis) config infoHashStr announceRequest.peerId peer isSeeder) :=
    .bind (Performs.perform_iff.mpr trivial) fun _ =>
      .bind (.bind (Performs.perform_iff.mpr trivial) fun _ => .done _) fun _ =>
        .bind (redisCommand_handles redis id) fun _ => .done _
  rw [btUpdatePeerList]
  split
  · exact .bind (redisCommand_handles redis id) fun _ => .done _
  · refine .bind (redisCommand_handles redis id) fun reply => ?_
    cases reply with
    | none => exact .done _
    | some reply =>
        dsimp only
        split
        · exact .done _
        · exact .bind (redisCommand_handles redis id) fun _ => .done _
  · exact inserted
  · exact inserted
  · exact .done _

/-! ## Contexts -/

/-- Connecting may fail, but it never goes wrong. -/
theorem openRedis_connects :
    Performs Op.Connects (fun _ => False) (openRedis config) := by
  refine .bind (.bind (Performs.perform_iff.mpr trivial) fun answer => ?_) fun opened =>
    .bind (Performs.perform_iff.mpr trivial) fun _ => .done _
  cases answer with
  | noMemory => exact .done _
  | failed conn => exact .bind (Performs.perform_iff.mpr trivial) fun _ => .done _
  | opened conn => exact .bind (Performs.perform_iff.mpr trivial) fun _ => .done _

theorem acquireRedis_connects :
    Performs Op.Connects (fun _ => False) (acquireRedis config) := by
  refine .bind (Performs.perform_iff.mpr trivial) fun kept => ?_
  cases kept with
  | none => exact openRedis_connects config
  | some kept =>
      refine .bind (.bind (Performs.perform_iff.mpr trivial) fun reply => ?_) fun ok => ?_
      · cases reply <;> exact .done _
      · cases ok with
        | true => exact .done _
        | false => exact openRedis_connects config

/-! ## Handlers -/

theorem Redis.Command.Accesses.of_looks {request : Redis.Command} (looks : request.Looks) :
    request.Accesses := by
  cases request <;> first | exact looks.elim | trivial

theorem Redis.Command.Accesses.of_writes {request : Redis.Command} (writes : ¬request.ReadOnly) :
    request.Accesses := by
  cases request <;> first | exact (writes trivial).elim | trivial

theorem scrapeLoop_handles (request : BtScrapeReq) (rounds : Nat) (i : BitVec 8)
    (entries : List BtScrapeEntry) :
    Handles redis Redis.Command.Accesses
      (scrapeLoop (some redis) config request rounds i entries) := by
  induction rounds generalizing i entries with
  | zero => exact Performs.fault_iff.mpr trivial
  | succ rounds ih =>
      rw [scrapeLoop]
      split
      · refine .bind ?_ fun infoHash => ?_
        · rw [BtScrapeReq.hashAt]
          split
          · exact .done _
          · exact Performs.fault_iff.mpr trivial
        · refine .bind (btInfoHashBlacklisted_handles ..) fun refused => ?_
          cases refused with
          | true => exact .done _
          | false =>
              exact .bind ((scrapeEntry_handles config redis _).mono fun _ => .of_looks)
                fun stats => ih _ _
      · exact .done _

/-- Every handler works on the context it was given. -/
theorem dispatch_handles (params : BtJobParams) (request : BtReq) (error : Option Bytes) :
    Handles redis Redis.Command.Accesses
      (dispatch host config params request error (some redis)) := by
  have valid := (btValidRequest_handles host config redis request params.buflen).mono
    fun _ => Redis.Command.Accesses.of_looks
  have sendError (msg : Option Bytes) :
      Handles redis Redis.Command.Accesses (btSendError host request msg) := by
    cases msg with
    | none => exact Performs.fault_iff.mpr trivial
    | some msg => exact .ofOption trivial _
  rw [dispatch]
  split
  · refine .bind valid fun accepted => ?_
    cases accepted with
    | false => exact .done _
    | true =>
        exact .bind (.bind (randomBytes_handles redis _ _) fun _ => .done _) fun connectionId =>
          .bind (.bind (redisCommand_handles redis trivial) fun _ => .done _) fun _ =>
            .bind (.ofOption trivial _) fun _ => .done _
  · refine .bind valid fun accepted => ?_
    cases accepted with
    | false => exact .done _
    | true =>
        refine .bind (btInfoHashBlacklisted_handles ..) fun refused => ?_
        cases refused with
        | true => exact .bind (sendError _) fun _ => .done _
        | false =>
            refine .bind ((btUpdatePeerList_handles ..).mono
              fun _ => Redis.Command.Accesses.of_writes) fun _ => ?_
            exact .bind ((answerAnnounce_handles ..).mono fun _ => .of_looks) fun _ => .done _
  · refine .bind valid fun accepted => ?_
    cases accepted with
    | false => exact .done _
    | true =>
        refine .bind (.ofOption trivial _) fun scrapeRequest =>
          .bind (.bind (scrapeLoop_handles ..) fun entries => ?_) fun _ => .done _
        cases entries with
        | none => exact sendError _
        | some entries => exact .ofOption trivial _
  · exact .bind (sendError _) fun _ => .done _
  · exact .done _

end BtTracker
