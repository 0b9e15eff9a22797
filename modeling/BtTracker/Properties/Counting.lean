import BtTracker.Foundation.Environment
import BtTracker.Correctness.PeerLists

/-!
# The counter of an announce response

The buffer of an announce response is sized by a counter and filled from a list.
`bt_peer_list` keeps both, over two calls that may end early, and they agree
whatever Redis fails to answer.
-/

namespace BtTracker

open BtTracker.Foundation
open BtTracker.Foundation.Program (Ensures)

/-! ## Failures of Redis -/

/-- What has happened while an announce was handled. -/
structure Incidents where
  /-- Peers were listed, so a `GET` from now on is one of a pipeline. -/
  listed : Bool
  /-- `RAND_MAX` was drawn, or there were more keys than an `int` can count. -/
  strayed : Bool
  /-- `KEYS` or `HGET` got no reply. -/
  missed : Bool
  deriving DecidableEq, Repr

namespace Incidents

/-- Before anything was asked. -/
def nothing : Incidents := ⟨false, false, false⟩

/-- A `GET` of a pipeline that succeeds returns a peer record.  Everything else may
be answered in any way, or not at all. -/
def Allows (incidents : Incidents) : (op : Op) → op.Answer → Prop
  | .redisCommand _ (.get _), reply => incidents.listed = true →
      reply = none ∨ ∃ record : Bytes, record.length = peerSize ∧ reply = some (.string record)
  | _, _ => True

def next (incidents : Incidents) : (op : Op) → op.Answer → Incidents
  | .redisCommand _ (.keys _), reply =>
      { listed := true
        strayed := incidents.strayed ||
          decide (2 ^ 31 < Option.elim reply 0 fun reply => reply.elements.length)
        missed := incidents.missed || Option.isNone reply }
  | .redisCommand _ (.hget _ _), reply =>
      { incidents with missed := incidents.missed || Option.isNone reply }
  | .rand, value =>
      { incidents with strayed := incidents.strayed || decide (Fin.val value = randMax) }
  | _, _ => incidents

/-- Faults that are not the fault of the counter: an index drawn outside of a
listing, and the release of a reply that did not arrive. -/
def Excuses (incidents : Incidents) : Fault → Prop
  | .elementIndex => incidents.strayed = true
  | .badFree => incidents.missed = true
  | _ => False

end Incidents

/-- Redis under every pattern of failures. -/
def failures : Environment Op Op.Answer Incidents := fun incidents op answer last =>
  incidents.Allows op answer ∧ last = incidents.next op answer

/-- The result is good, or there is an excuse for having none. -/
def GoodOrExcused {α : Type} (good : α → Prop) : Except Fault α → Incidents → Prop
  | .ok result, _ => good result
  | .error reason, last => last.Excuses reason

theorem GoodOrExcused.bind {α β : Type} {good : α → Prop} {better : β → Prop}
    {program : Worker α} {rest : α → Worker β} {incidents : Incidents}
    (first : Ensures failures (GoodOrExcused good) program incidents)
    (second : ∀ result last, good result →
      Ensures failures (GoodOrExcused better) (rest result) last) :
    Ensures failures (GoodOrExcused better) (program >>= rest) incidents := by
  apply Ensures.bind first
  · exact second
  · intro reason last excused
    exact excused

/-! ## The arguments of the serializer -/

/-- How `bt_handle_announce` returns: it ignores the request, refuses it, or calls
`bt_serialize_announce_response`. -/
inductive AnnounceReturn where
  | ignored
  | refused
  | serialized (responseData : BtAnnounceResp) (peerCount : Nat) (peers : List BtPeerAddr)

section Calls

variable (host : Host) (request : BtReq) (config : BtConfig)

/-- The call in the `return` statement. -/
def AnnounceReturn.finish : AnnounceReturn → Worker (Option Block)
  | .ignored => pure none
  | .refused => some <$> btSendError host request (some (ascii "Blacklisted info hash"))
  | .serialized responseData peerCount peers =>
      some <$> btSerializeAnnounceResponse host responseData peerCount peers

/-- The arguments of the serializer, as far as they are computed after the update. -/
def serializerArguments (announceRequest : BtAnnounceReq) (infoHashStr : Bytes)
    (isSeeder : Bool) (redis : Option Context) : Worker AnnounceReturn := do
  let numWant := clampNumWant config announceRequest.numWant
  let (peers, peerCount) ← selectPeers host redis config infoHashStr numWant isSeeder
  let stats ← btGetTorrentStats redis config infoHashStr .unassigned
  let leechers ← .ofOption .unassigned stats.leechers
  let seeders ← .ofOption .unassigned stats.seeders
  pure (.serialized
    { action := request.action
      transactionId := request.transactionId
      interval := config.announceWaitTime
      leechers := leechers
      seeders := seeders }
    peerCount peers)

/-- `bt_handle_announce` up to its `return` statement. -/
def announceReturn (buff : RecvBuffer) (buflen : Nat) (clientAddr : SockaddrPtr)
    (redis : Option Context) : Worker AnnounceReturn := do
  if !(← btValidRequest host redis config request buflen) then
    pure .ignored
  else
    let announceRequest := btReadAnnounceRequestData host buff
    let infoHashStr := cString (btBytearrayToHexarray (List.ofFn announceRequest.infoHash))
    if ← btInfoHashBlacklisted redis config infoHashStr then
      pure .refused
    else
      let isSeeder := decide (announceRequest.left = 0)
      btUpdatePeerList host redis config announceRequest clientAddr infoHashStr isSeeder
      serializerArguments host request config announceRequest infoHashStr isSeeder redis

theorem answerAnnounce_eq (announceRequest : BtAnnounceReq) (infoHashStr : Bytes)
    (isSeeder : Bool) (redis : Option Context) :
    some <$> answerAnnounce host request config announceRequest infoHashStr isSeeder redis =
      serializerArguments host request config announceRequest infoHashStr isSeeder redis >>=
        AnnounceReturn.finish host request := by
  simp only [answerAnnounce, serializerArguments, Program.map_eq_bind, Program.bind_assoc,
    Program.pure_eq_done, Program.done_bind]
  rfl

/-- The handler is what comes before its `return` statement, and the call in it. -/
theorem btHandleAnnounce_eq (buff : RecvBuffer) (buflen : Nat) (clientAddr : SockaddrPtr)
    (redis : Option Context) :
    btHandleAnnounce host request config buff buflen clientAddr redis =
      announceReturn host request config buff buflen clientAddr redis >>=
        AnnounceReturn.finish host request := by
  rw [btHandleAnnounce, announceReturn, Program.bind_assoc]
  congr 1
  funext valid
  cases valid with
  | false => rfl
  | true =>
      simp only [Bool.not_true, Bool.false_eq_true, if_false]
      rw [Program.bind_assoc]
      congr 1
      funext refused
      cases refused with
      | true => rfl
      | false =>
          simp only [Bool.false_eq_true, if_false]
          rw [Program.bind_assoc]
          congr 1
          funext _
          exact answerAnnounce_eq ..

end Calls

/-! ## What each part ensures -/

section Parts

variable {incidents : Incidents}

/-- The shuffle keeps the number of keys, and only an index that strayed stops it. -/
theorem shuffleFrom_counts (rounds i : Nat) {elements : List Bytes}
    (fits : i + rounds ≤ elements.length) (listed : incidents.listed = true)
    (few : elements.length ≤ 2 ^ 31 ∨ incidents.strayed = true) :
    Ensures failures (fun outcome last => last.listed = true ∧
        GoodOrExcused (fun shuffled => shuffled.length = elements.length) outcome last)
      (shuffleFrom rounds i elements) incidents := by
  induction rounds generalizing i elements incidents with
  | zero => exact ⟨listed, rfl⟩
  | succ rounds ih =>
      rintro value last ⟨-, rfl⟩
      have round : i < elements.length := by omega
      change Ensures _ _ (Program.ofOption .elementIndex (swapElements elements i
        (scaleRandom (BitVec.ofNat 32 i) (BitVec.ofNat 32 (elements.length - 1)) value)) >>=
          shuffleFrom rounds (i + 1)) _
      cases swap : swapElements elements i
          (scaleRandom (BitVec.ofNat 32 i) (BitVec.ofNat 32 (elements.length - 1)) value) with
      | none =>
          refine ⟨listed, ?_⟩
          change (incidents.strayed || decide (value.val = randMax)) = true
          rw [Bool.or_eq_true, decide_eq_true_iff]
          by_contra! proper
          obtain ⟨straight, smaller⟩ := proper
          have within := (within_iff round (few.resolve_right straight) value).mpr smaller
          obtain ⟨swapped, found⟩ := swapElements_of_within round within
          cases swap.symm.trans found
      | some swapped =>
          have same := (swapElements_perm swap).length_eq
          have still : swapped.length ≤ 2 ^ 31 ∨ (incidents.next .rand value).strayed = true := by
            change _ ∨ (incidents.strayed || decide (value.val = randMax)) = true
            rw [same, Bool.or_eq_true]
            exact few.imp_right .inl
          have remaining : i + 1 + rounds ≤ swapped.length := by omega
          have stillListed : (incidents.next .rand value).listed = true := listed
          have rest := ih (i + 1) remaining stillListed still
          rw [same] at rest
          exact rest

/-- Every record that arrives is counted. -/
theorem fetchPeers_counts (host : Host) (redis : Context) (keys : List Bytes)
    (list : List BtPeerAddr) (listed : incidents.listed = true) :
    Ensures failures (fun outcome _ => ∃ peers : List BtPeerAddr,
        outcome = .ok (peers, peers.length) ∧ peers.length ≤ list.length + keys.length)
      (fetchPeers host (some redis) keys list list.length) incidents := by
  induction keys generalizing list incidents with
  | nil => exact ⟨list, rfl, Nat.le_add_right ..⟩
  | cons key rest ih =>
      rintro reply last ⟨allowed, rfl⟩
      rcases allowed listed with rfl | ⟨record, full, rfl⟩
      · apply (ih list listed).mono
        rintro outcome last ⟨peers, returned, bounded⟩
        exact ⟨peers, returned, bounded.trans (by simp)⟩
      · have long : peerPortOffset + 2 ≤ record.length := by
          rw [full]
          decide
        change Ensures _ _ (readPeerAddr host (.string record) >>= fun addr =>
          fetchPeers host (some redis) rest (addr :: list) (list.length + 1)) _
        rw [readPeerAddr, Redis.Reply.str]
        dsimp only
        rw [if_pos long]
        apply (ih (_ :: list) listed).mono
        rintro outcome last ⟨peers, returned, bounded⟩
        refine ⟨peers, returned, bounded.trans ?_⟩
        simp only [List.length_cons]
        omega

/-- The counter and the list `bt_peer_list` returns. -/
def Counted (wanted : Nat) (result : List BtPeerAddr × Nat) : Prop :=
  result.2 = result.1.length ∧ result.2 ≤ wanted

theorem btPeerList_counts (host : Host) (config : BtConfig) (redis : Context) (infoHashStr : Bytes)
    {numWant : BitVec 32} {wanted : Nat} (asked : numWant.toInt = wanted) (seeder : Bool) :
    Ensures failures (GoodOrExcused (Counted wanted))
      (btPeerList host (some redis) config infoHashStr numWant 0 seeder) incidents := by
  rintro reply last ⟨-, rfl⟩
  cases reply with
  | none => exact ⟨rfl, Nat.zero_le _⟩
  | some reply =>
      cases reply with
      | array elements =>
          change Ensures _ _ (shuffleFrom (upperIndex elements.length numWant).toNat 0 elements >>=
            fun shuffled => fetchPeers host (some redis)
              (shuffled.take (upperIndex elements.length numWant).toNat) [] 0) _
          rw [upperIndex_eq elements.length asked, Int.toNat_natCast]
          have few : elements.length ≤ 2 ^ 31 ∨
              (incidents.strayed || decide (2 ^ 31 < elements.length)) = true := by
            rw [Bool.or_eq_true, decide_eq_true_iff]
            omega
          apply Ensures.bind (shuffleFrom_counts _ 0 (by omega) rfl few)
          · rintro shuffled last ⟨listed, -⟩
            apply (fetchPeers_counts host redis _ [] listed).mono
            rintro outcome last ⟨peers, rfl, bounded⟩
            refine ⟨rfl, bounded.trans ?_⟩
            rw [List.length_take, List.length_nil]
            omega
          · intro reason last ended
            exact ended.2
      | _ => exact ⟨rfl, Nat.zero_le _⟩

/-- Both calls together find no more peers than wanted. -/
theorem selectPeers_counts (host : Host) (config : BtConfig) (redis : Context)
    (infoHashStr : Bytes) {numWant : BitVec 32} {wanted : Nat} (asked : numWant.toInt = wanted)
    (isSeeder : Bool) :
    Ensures failures (GoodOrExcused (Counted wanted))
      (selectPeers host (some redis) config infoHashStr numWant isSeeder) incidents := by
  apply GoodOrExcused.bind (btPeerList_counts host config redis infoHashStr asked (!isSeeder))
  rintro ⟨peers, peerCount⟩ middle ⟨counted, bounded⟩
  dsimp only at counted bounded ⊢
  split
  · have remaining := toInt_remaining asked bounded
    apply GoodOrExcused.bind (btPeerList_counts host config redis infoHashStr remaining isSeeder)
    rintro ⟨complement, complementCount⟩ last ⟨countedToo, boundedToo⟩
    dsimp only at countedToo boundedToo ⊢
    split
    · have bothCounted : peerCount + complementCount = (peers ++ complement).length := by
        rw [List.length_append, counted, countedToo]
      have bothBounded : peerCount + complementCount ≤ wanted := by omega
      exact ⟨bothCounted, bothBounded⟩
    · exact ⟨counted, bounded⟩
  · exact ⟨counted, bounded⟩

/-- The two counters of the response are assigned, unless a reply was missed. -/
theorem btGetTorrentStats_assigns (config : BtConfig) (redis : Context) (infoHashStr : Bytes) :
    Ensures failures (GoodOrExcused fun stats : BtTorrentStats =>
        stats.leechers.isSome = true ∧ stats.seeders.isSome = true)
      (btGetTorrentStats (some redis) config infoHashStr .unassigned) incidents := by
  have missing (before : Bool) : (before || true) = true := Bool.or_true before
  rintro reply first ⟨-, rfl⟩
  cases reply with
  | none => exact missing _
  | some seeders =>
      rintro reply second ⟨-, rfl⟩
      cases reply with
      | none => exact missing _
      | some leechers =>
          rintro reply third ⟨-, rfl⟩
          cases reply with
          | none => exact missing _
          | some downloads => exact ⟨rfl, rfl⟩

end Parts

/-! ## The whole handler -/

/-- The counter is the length of the list and at most what the configuration
allows, and the peers fill exactly the rest of a buffer of that size. -/
structure PeersFit (host : Host) (config : BtConfig) (peerCount : Nat) (peers : List BtPeerAddr) :
    Prop where
  counted : peerCount = peers.length
  bounded : peerCount ≤ config.announceMaxNumwant.toNat
  size : (peers.flatMap (peerEntry host)).length = 6 * peerCount
  written : ∀ header : Bytes, header.length = 20 →
    btWriteAnnouncePeerData host (.ofBytes header ++ .malloc (6 * peerCount)) peers =
      some (.ofBytes header ++ .ofBytes (peers.flatMap (peerEntry host)))
  serialized : ∀ responseData, btSerializeAnnounceResponse host responseData peerCount peers =
    .done (.ofBytes (announceHeader host responseData) ++
      .ofBytes (peers.flatMap (peerEntry host)))

theorem Counted.peersFit {config : BtConfig} {numWant : BitVec 32} {peers : List BtPeerAddr}
    {peerCount : Nat} (counted : Counted (wantedPeers config numWant) (peers, peerCount))
    (host : Host) : PeersFit host config peerCount peers := by
  obtain ⟨same, bounded⟩ := counted
  dsimp only at same bounded
  subst same
  refine ⟨rfl, bounded.trans (wantedPeers_le config numWant), ?_, ?_, ?_⟩
  · rw [List.length_flatMap]
    simp [Nat.mul_comm]
  · intro header full
    rw [btWriteAnnouncePeerData, writePeersFrom_eq host peers header 0 full, Block.ofBytes_append]
  · intro responseData
    rw [btSerializeAnnounceResponse_eq host responseData _ peers rfl, Block.ofBytes_append]

/-- What is known at the `return` statement. -/
def AnnounceReturn.Fits (host : Host) (config : BtConfig) : AnnounceReturn → Prop
  | .serialized _ peerCount peers => PeersFit host config peerCount peers
  | _ => True

theorem serializerArguments_fits (host : Host) (request : BtReq) (config : BtConfig)
    (announceRequest : BtAnnounceReq) (infoHashStr : Bytes) (isSeeder : Bool) (redis : Context)
    (incidents : Incidents) :
    Ensures failures (GoodOrExcused (AnnounceReturn.Fits host config))
      (serializerArguments host request config announceRequest infoHashStr isSeeder (some redis))
      incidents := by
  have asked := toInt_clampNumWant config announceRequest.numWant
  apply GoodOrExcused.bind (selectPeers_counts host config redis infoHashStr asked isSeeder)
  intro selected middle counted
  apply GoodOrExcused.bind (btGetTorrentStats_assigns config redis infoHashStr)
  intro stats last assigned
  obtain ⟨leechers, hasLeechers⟩ := Option.isSome_iff_exists.mp assigned.1
  obtain ⟨seeders, hasSeeders⟩ := Option.isSome_iff_exists.mp assigned.2
  rw [hasLeechers, hasSeeders]
  exact Counted.peersFit counted host

/-- Whatever Redis fails to answer, the counter passed to the serializer is the
length of the list of peers, and no peer is written outside of the buffer. -/
theorem announce_peersFit (host : Host) (request : BtReq) (config : BtConfig) (buff : RecvBuffer)
    (buflen : Nat) (clientAddr : SockaddrPtr) (redis : Context) :
    btHandleAnnounce host request config buff buflen clientAddr (some redis) =
        announceReturn host request config buff buflen clientAddr (some redis) >>=
          AnnounceReturn.finish host request ∧
      Ensures failures (GoodOrExcused (AnnounceReturn.Fits host config))
        (announceReturn host request config buff buflen clientAddr (some redis)) .nothing := by
  constructor
  · exact btHandleAnnounce_eq ..
  · apply (btValidRequest_faultFree host config redis request buflen).ensures_bind
    intro valid middle
    cases valid with
    | false => trivial
    | true =>
        apply (btInfoHashBlacklisted_faultFree config redis _).ensures_bind
        intro refused middle
        cases refused with
        | true => trivial
        | false =>
            apply (World.btUpdatePeerList_faultFree host config redis _ _ _ _).ensures_bind
            intro updated last
            exact serializerArguments_fits host request config _ _ _ redis last

end BtTracker
