import BtTracker.Foundation.Resource
import BtTracker.Model.Random

/-!
# Data storage

The functions of `data.c`, one for one.  A C string is the list of its bytes
without the terminator.  Log messages and the release of replies are left out,
except in `torrentStatsReplies`, where what is released depends on which replies
arrived.
-/

namespace BtTracker

open BtTracker.Foundation

/-- The bytes of a C string up to its terminator. -/
def cString (array : Bytes) : Bytes := array.takeWhile (· ≠ 0)

/-- The digits in `bt_bytearray_to_hexarray`. -/
def hexStr : Bytes := ascii "0123456789abcdef"

/-- The two digits of one byte.  The byte is an `int8_t`, so it is sign-extended
before it is shifted. -/
def hexDigits (byte : Byte) : Bytes :=
  let promoted := byte.signExtend 32
  [hexStr.getD ((promoted.sshiftRight 4) &&& 0xF).toNat 0,
    hexStr.getD (promoted &&& 0x0F).toNat 0]

/-- The array filled by `bt_bytearray_to_hexarray`, with its terminator. -/
def btBytearrayToHexarray (bin : Bytes) : Bytes := bin.flatMap hexDigits ++ [0]

/-- The value of an `int` expression; `none` when it overflows. -/
def intValue (value : Nat) : Option Nat := if value < 2 ^ 31 then some value else none

/-- The loop of `bt_bytearray_to_hexarray` from index `i` on.  The index is an
`int`, and so are the positions of the two digits. -/
def hexarrayFrom (i : Nat) (result : Block) : Bytes → Option Block
  | [] => some result
  | byte :: rest => do
      let promoted := byte.signExtend 32
      let position ← intValue (i * 2)
      let result ← result.memcpy position
        [hexStr.getD ((promoted.sshiftRight 4) &&& 0xF).toNat 0]
      let position ← intValue (i * 2 + 1)
      let result ← result.memcpy position [hexStr.getD (promoted &&& 0x0F).toNat 0]
      hexarrayFrom (i + 1) result rest

/-- `bt_bytearray_to_hexarray` for an array of any size, as the code fills it. -/
def fillHexarray (bin : Bytes) : Option Block := do
  let result ← (Block.malloc (bin.length * 2 + 1)).memcpy (bin.length * 2) [0]
  hexarrayFrom 0 result bin

/-! ## Keys -/

/-- `%s:conn:%b`, where the bytes are the memory image of the identifier. -/
def connectionKey (host : Host) (config : BtConfig) (connectionId : BitVec 64) : Bytes :=
  config.redisKeyPrefix ++ ascii ":conn:" ++ host.order.store connectionId

/-- The text that tells the keys of seeders from those of leechers. -/
def peerPrefix (isSeeder : Bool) : Bytes := if isSeeder then ascii "sd" else ascii "lc"

/-- `%s:pr:%s:%s:`, the common part of the keys of a swarm's seeders or
leechers. -/
def swarmPrefix (config : BtConfig) (infoHashStr : Bytes) (isSeeder : Bool) : Bytes :=
  config.redisKeyPrefix ++ ascii ":pr:" ++ infoHashStr ++ ascii ":" ++
    peerPrefix isSeeder ++ ascii ":"

/-- `%s:pr:%s:%s:%b`. -/
def peerKey (config : BtConfig) (infoHashStr : Bytes) (isSeeder : Bool)
    (peerId : Octets 20) : Bytes :=
  swarmPrefix config infoHashStr isSeeder ++ List.ofFn peerId

/-- `%s:ih:%s`. -/
def infoHashKey (config : BtConfig) (infoHashStr : Bytes) : Bytes :=
  config.redisKeyPrefix ++ ascii ":ih:" ++ infoHashStr

/-! ## Redis -/

def btRedisConnect (unixSock : Option Bytes) (redisHost : Bytes) (port : BitVec 16)
    (timeout : BitVec 32) (db : BitVec 16) : Worker (Option Context) := do
  let endpoint : Endpoint :=
    match unixSock with
    | some path => .unixSocket path
    | none => .tcp redisHost port
  match ← perform (Op.redisConnect endpoint timeout) with
  | .noMemory => pure none
  | .failed conn => do
      perform (Op.redisFree conn)
      pure none
  | .opened conn => do
      let _ ← redisCommand (some conn) (.select db.toNat)
      pure (some conn)

def btRedisPing (redis : Option Context) : Worker Bool := do
  match ← redisCommand redis .ping with
  | none => pure false
  | some reply => pure (!reply.isError)

/-! ## Connections -/

/-- `BT_ACTIVE_CONNECTION_TTL`. -/
def btActiveConnectionTtl : Nat := 120

def btInsertConnection (host : Host) (redis : Option Context) (config : BtConfig)
    (connectionId : BitVec 64) : Worker Unit := do
  let _ ← redisCommand redis
    (.setex (connectionKey host config connectionId) btActiveConnectionTtl (ascii "1"))
  pure ()

def btConnectionValid (host : Host) (redis : Option Context) (config : BtConfig)
    (connectionId : BitVec 64) : Worker Bool := do
  match ← redisCommand redis (.get (connectionKey host config connectionId)) with
  | none => pure false
  | some reply => pure (!reply.isError)

/-! ## Peers -/

/-- The members of a new peer, with what `malloc` left behind them. -/
def newPeer (request : BtAnnounceReq) (sockaddr : BitVec 32) (padding : Octets 6) : BtPeer where
  key := request.key
  downloaded := request.downloaded
  uploaded := request.uploaded
  left := request.left
  port := request.port
  ipv4Addr := if request.ipv4Addr = 0 then sockaddr else request.ipv4Addr
  padding := padding

def btNewPeer (request : BtAnnounceReq) (sockaddr : BitVec 32) : Worker BtPeer := do
  let padding ← perform Op.malloc
  pure (newPeer request sockaddr padding)

def btNewPeerAddr (ipv4Addr : BitVec 32) (port : BitVec 16) : BtPeerAddr := ⟨ipv4Addr, port⟩

/-- Memory image of a `bt_peer_t`: forty bytes, the last six of them unused. -/
def BtPeer.image (host : Host) (peer : BtPeer) : Bytes :=
  host.order.store peer.key ++ host.order.store peer.ipv4Addr ++
    host.order.store peer.downloaded ++ host.order.store peer.uploaded ++
    host.order.store peer.left ++ host.order.store peer.port ++ List.ofFn peer.padding

/-- `announce_peer_ttl` as `%d` prints it. -/
def BtConfig.peerTtl (config : BtConfig) : Int := config.announcePeerTtl.toInt

def btInsertPeer (host : Host) (redis : Option Context) (config : BtConfig)
    (infoHashStr : Bytes) (peerId : Octets 20) (peerData : BtPeer) (isSeeder : Bool) :
    Worker Unit := do
  let _ ← redisCommand redis
    (.setex (peerKey config infoHashStr isSeeder peerId) config.peerTtl (peerData.image host))
  pure ()

def btRemovePeer (redis : Option Context) (config : BtConfig) (infoHashStr : Bytes)
    (peerId : Octets 20) (isSeeder : Bool) : Worker Unit := do
  let _ ← redisCommand redis (.del (peerKey config infoHashStr isSeeder peerId))
  pure ()

def btIncrementDownloads (redis : Option Context) (config : BtConfig) (infoHashStr : Bytes) :
    Worker Unit := do
  let _ ← redisCommand redis (.hincrby (infoHashKey config infoHashStr) (ascii "downs") 1)
  pure ()

def btPromotePeer (redis : Option Context) (config : BtConfig) (infoHashStr : Bytes)
    (peerId : Octets 20) : Worker Unit := do
  match ← redisCommand redis (.rename (peerKey config infoHashStr false peerId)
    (peerKey config infoHashStr true peerId)) with
  | none => pure ()
  | some reply =>
      if reply.isError then pure () else btIncrementDownloads redis config infoHashStr

/-! ## Torrents -/

/-- The set consulted in a restriction mode. -/
def restrictionKey (config : BtConfig) (list : Bytes) : Bytes :=
  config.redisKeyPrefix ++ ascii ":ih:" ++ list

def btInfoHashBlacklisted (redis : Option Context) (config : BtConfig)
    (infoHashStr : Bytes) : Worker Bool :=
  match config.infoHashRestriction with
  | .whitelist => do
      match ← redisCommand redis
        (.sismember (restrictionKey config (ascii "wl")) infoHashStr) with
      | none => pure true
      | some (.integer value) => pure (decide (value = 0))
      | some _ => pure false
  | .blacklist => do
      match ← redisCommand redis
        (.sismember (restrictionKey config (ascii "bl")) infoHashStr) with
      | none => pure true
      | some (.integer value) => pure (decide (0 < value))
      | some _ => pure false
  | .none => pure false

/-- What the pointer `reply` of `bt_get_torrent_stats` may refer to: whatever the
stack held, or the reply to one of the three commands. -/
inductive Pointee where
  | stale
  | reply (index : Nat)
  deriving DecidableEq, Repr

/-- The pointer, which may be null, and what happened to the objects it referred
to, the last event first. -/
structure ReplyVar where
  pointer : Option Pointee
  history : List (Usage Pointee)

namespace ReplyVar

/-- `redisGetReply(redis, (void **) &reply)`: a call that fails leaves the pointer
alone. -/
def getReply (index : Nat) (reply : Option Redis.Reply) (var : ReplyVar) : ReplyVar :=
  if reply.isSome then ⟨some (.reply index), .acquired (.reply index) :: var.history⟩ else var

/-- `if (reply != NULL) freeReplyObject(reply)`. -/
def free (var : ReplyVar) : Worker ReplyVar :=
  match var.pointer with
  | none => pure var
  | some pointee =>
      if Usage.Live var.history pointee then
        pure { var with history := .released pointee :: var.history }
      else
        .fault .badFree

/-- A reply that just arrived is released. -/
theorem free_getReply {index : Nat} {var : ReplyVar} (reply : Redis.Reply)
    (fresh : .released (.reply index) ∉ var.history) :
    (var.getReply index (some reply)).free = .done ⟨some (.reply index),
      .released (.reply index) :: .acquired (.reply index) :: var.history⟩ :=
  if_pos (Usage.live_acquired.mpr ⟨.inl rfl, fresh⟩)

theorem free_cases (var : ReplyVar) :
    (∃ after, var.free = .done after) ∨ var.free = .fault .badFree := by
  rw [free]
  split
  · exact .inl ⟨_, rfl⟩
  · split
    · exact .inl ⟨_, rfl⟩
    · exact .inr rfl

end ReplyVar

/-- `bt_get_torrent_stats`, with what became of the replies.  Nobody sets the
pointer beforehand: it starts as whatever the stack holds. -/
def torrentStatsReplies (stack : Option Pointee) (redis : Option Context) (config : BtConfig)
    (infoHashStr : Bytes) (stats : BtTorrentStats) :
    Worker (BtTorrentStats × List (Usage Pointee)) := do
  let reply ← redisCommand redis (.keys (swarmPrefix config infoHashStr true ++ ascii "*"))
  let stats := reply.elim stats fun reply =>
    { stats with seeders := some (BitVec.ofNat 32 reply.elements.length) }
  let var ← (ReplyVar.getReply 0 reply ⟨stack, []⟩).free
  let reply ← redisCommand redis (.keys (swarmPrefix config infoHashStr false ++ ascii "*"))
  let stats := reply.elim stats fun reply =>
    { stats with leechers := some (BitVec.ofNat 32 reply.elements.length) }
  let var ← (var.getReply 1 reply).free
  let reply ← redisCommand redis (.hget (infoHashKey config infoHashStr) (ascii "downs"))
  let stats := reply.elim stats fun reply =>
    { stats with
      downloads := some (reply.str.elim 0 fun text =>
        BitVec.ofInt 32 (Decimal.strtoimax (cString text))) }
  let var ← (var.getReply 2 reply).free
  pure (stats, var.history)

/-- `bt_get_torrent_stats` for a caller that knows nothing about the stack, where
the pointer starts as an address that is not this call's to release. -/
def btGetTorrentStats (redis : Option Context) (config : BtConfig) (infoHashStr : Bytes)
    (stats : BtTorrentStats) : Worker BtTorrentStats := do
  let (stats, _) ← torrentStatsReplies (some .stale) redis config infoHashStr stats
  pure stats

/-! ## Peer lists -/

/-- Exchange two elements of a reply array; the second index is an `int`. -/
def swapElements (elements : List Bytes) (i : Nat) (j : BitVec 32) : Option (List Bytes) := do
  let aux ← elements[i]?
  let other ← if j.toInt < 0 then none else elements[j.toNat]?
  some ((elements.set i other).set j.toNat aux)

/-- The shuffle of `bt_peer_list`: `rounds` more rounds, starting at index `i`. -/
def shuffleFrom : (rounds i : Nat) → List Bytes → Worker (List Bytes)
  | 0, _, elements => pure elements
  | rounds + 1, i, elements => do
      let j ← randr (BitVec.ofNat 32 i) (BitVec.ofNat 32 (elements.length - 1))
      let elements ← .ofOption .elementIndex (swapElements elements i j)
      shuffleFrom rounds (i + 1) elements

/-- Offset of `ipv4_addr` and of `port` in a `bt_peer_t`. -/
def peerAddrOffset : Nat := 4
def peerPortOffset : Nat := 32

/-- The address in the peer record a reply text is taken for. -/
def readPeerAddr (host : Host) (reply : Redis.Reply) : Worker BtPeerAddr :=
  match reply.str with
  | none => .fault .nullPeer
  | some text =>
      if peerPortOffset + 2 ≤ text.length then
        pure (btNewPeerAddr
          (host.order.load 32 ((text.drop peerAddrOffset).take 4))
          (host.order.load 16 ((text.drop peerPortOffset).take 2)))
      else
        .fault .shortPeer

/-- The last loop of `bt_peer_list`: read the record under each key and prepend
its address to the list. -/
def fetchPeers (host : Host) (redis : Option Context) :
    List Bytes → List BtPeerAddr → Nat → Worker (List BtPeerAddr × Nat)
  | [], list, count => pure (list, count)
  | key :: rest, list, count => do
      match ← redisCommand redis (.get key) with
      | some reply => do
          let addr ← readPeerAddr host reply
          fetchPeers host redis rest (addr :: list) (count + 1)
      | none => fetchPeers host redis rest list count

/-- `upper_index`: the comparison is between two `size_t`, the result is an
`int`. -/
def upperIndex (totalKeys : Nat) (numWant : BitVec 32) : Int :=
  let wanted := (numWant.signExtend 64).toNat
  (BitVec.ofNat 32 (if totalKeys > wanted then wanted else totalKeys)).toInt

/-- `bt_peer_list`, returning the list and the new value of `*peer_count`. -/
def btPeerList (host : Host) (redis : Option Context) (config : BtConfig)
    (infoHashStr : Bytes) (numWant : BitVec 32) (peerCount : Nat) (seeder : Bool) :
    Worker (List BtPeerAddr × Nat) := do
  match ← redisCommand redis (.keys (swarmPrefix config infoHashStr seeder ++ ascii "*")) with
  | none => pure ([], peerCount)
  | some (.array elements) => do
      let rounds := (upperIndex elements.length numWant).toNat
      let elements ← shuffleFrom rounds 0 elements
      fetchPeers host redis (elements.take rounds) [] 0
  | some _ => pure ([], 0)

end BtTracker
