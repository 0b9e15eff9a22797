import BtTracker.Foundation.ByteOrder

/-!
# Data types of the tracker

The structures of `conf.h`, `data.h` and `pool.h`, with the fields the modelled
functions read.  Integer members keep the width of their C type; an enumeration
member is the 32-bit word it holds, because a request may carry any word, and
the enumerators are recovered by `ofWord?`.
-/

namespace BtTracker

open BtTracker.Foundation

/-- A fixed-size byte array. -/
abbrev Octets (size : Nat) := Fin size → Byte

/-- What the code relies on from the machine it runs on. -/
structure Host where
  order : ByteOrder

/-- A little-endian machine. -/
def Host.little : Host := ⟨.little⟩

/-- `bt_restriction`: whether some info hashes are not tracked. -/
inductive BtRestriction where
  | none
  | whitelist
  | blacklist
  deriving DecidableEq, Repr

/-- `bt_config_t`, without the options only `main` and the thread pool read. -/
structure BtConfig where
  announceWaitTime : BitVec 32
  announcePeerTtl : BitVec 32
  announceMaxNumwant : BitVec 16
  redisSocketPath : Option Bytes
  redisHost : Bytes
  redisPort : BitVec 16
  redisTimeout : BitVec 32
  redisDb : BitVec 16
  redisKeyPrefix : Bytes
  infoHashRestriction : BtRestriction

/-- The configuration file that comes with the tracker. -/
def BtConfig.shipped : BtConfig where
  announceWaitTime := 1800
  announcePeerTtl := 1920
  announceMaxNumwant := 80
  redisSocketPath := some (ascii "/tmp/redis.sock")
  redisHost := ascii "127.0.0.1"
  redisPort := 6379
  redisTimeout := 500
  redisDb := 0
  redisKeyPrefix := ascii "bttracker"
  infoHashRestriction := .none

/-- `bt_action`: types of requests. -/
inductive BtAction where
  | connect
  | announce
  | scrape
  | error
  deriving DecidableEq, Repr

namespace BtAction

def toWord : BtAction → BitVec 32
  | connect => 0
  | announce => 1
  | scrape => 2
  | error => 3

/-- The enumerator with the given value, if there is one. -/
def ofWord? (word : BitVec 32) : Option BtAction :=
  if word = 0 then some connect
  else if word = 1 then some announce
  else if word = 2 then some scrape
  else if word = 3 then some error
  else none

@[simp] theorem ofWord?_toWord (action : BtAction) : ofWord? action.toWord = some action := by
  cases action <;> decide

theorem ofWord?_eq_some {word : BitVec 32} {action : BtAction} :
    ofWord? word = some action ↔ word = action.toWord := by
  constructor
  · intro found
    simp only [ofWord?] at found
    repeat' split at found
    all_goals first
      | (cases found; assumption)
      | cases found
  · rintro rfl
    exact ofWord?_toWord action

end BtAction

/-- `bt_announce_event`: types of announce events. -/
inductive BtAnnounceEvent where
  | none
  | completed
  | started
  | stopped
  deriving DecidableEq, Repr

namespace BtAnnounceEvent

/-- The enumerator with the given value, if there is one. -/
def ofWord? (word : BitVec 32) : Option BtAnnounceEvent :=
  if word = 0 then some none
  else if word = 1 then some completed
  else if word = 2 then some started
  else if word = 3 then some stopped
  else Option.none

end BtAnnounceEvent

/-- `bt_req_t`: fields common to all types of requests. -/
structure BtReq where
  connectionId : BitVec 64
  action : BitVec 32
  transactionId : BitVec 32
  deriving DecidableEq, Repr

/-- `bt_connection_resp_t`. -/
structure BtConnectionResp where
  action : BitVec 32
  transactionId : BitVec 32
  connectionId : BitVec 64

/-- `bt_announce_req_t`: data sent by the client when it's announcing itself. -/
structure BtAnnounceReq where
  connectionId : BitVec 64
  action : BitVec 32
  transactionId : BitVec 32
  ipv4Addr : BitVec 32
  port : BitVec 16
  infoHash : Octets 20
  peerId : Octets 20
  downloaded : BitVec 64
  left : BitVec 64
  uploaded : BitVec 64
  key : BitVec 32
  numWant : BitVec 32
  event : BitVec 32

/-- `bt_announce_resp_t`. -/
structure BtAnnounceResp where
  action : BitVec 32
  transactionId : BitVec 32
  interval : BitVec 32
  leechers : BitVec 32
  seeders : BitVec 32

/-- `bt_scrape_req_t`.  `infoHash` holds the bytes copied into the member of the
same name. -/
structure BtScrapeReq where
  connectionId : BitVec 64
  action : BitVec 32
  transactionId : BitVec 32
  infoHashLen : Nat
  infoHash : Bytes

/-- `bt_torrent_stats_t`.  A member nobody assigned yet is `none`. -/
structure BtTorrentStats where
  seeders : Option (BitVec 32)
  downloads : Option (BitVec 32)
  leechers : Option (BitVec 32)
  deriving DecidableEq

/-- A `bt_torrent_stats_t` on the stack or fresh from the allocator. -/
def BtTorrentStats.unassigned : BtTorrentStats := ⟨none, none, none⟩

/-- An entry of a scrape response, with every member assigned. -/
structure BtScrapeEntry where
  seeders : BitVec 32
  downloads : BitVec 32
  leechers : BitVec 32
  deriving DecidableEq, Repr

/-- `bt_scrape_resp_t`. -/
structure BtScrapeResp where
  action : BitVec 32
  transactionId : BitVec 32
  scrapeEntries : List BtScrapeEntry

/-- `bt_peer_addr_t`: peer address. -/
structure BtPeerAddr where
  ipv4Addr : BitVec 32
  port : BitVec 16
  deriving DecidableEq, Repr

/-- `bt_peer_t`: peer information.  The compiler leaves six bytes unused at its end,
which are stored along with its members. -/
structure BtPeer where
  key : BitVec 32
  ipv4Addr : BitVec 32
  downloaded : BitVec 64
  uploaded : BitVec 64
  left : BitVec 64
  port : BitVec 16
  padding : Octets 6

/-- `struct sockaddr_in`; `sAddr` is the word `sin_addr.s_addr`, whose memory
image is the address in network order. -/
structure SockaddrIn where
  sinPort : BitVec 16
  sAddr : BitVec 32
  deriving DecidableEq, Repr

/-- Pointers to a socket address.  The receive loop owns a single cell, and all
the jobs it creates point to it. -/
inductive SockaddrPtr where
  | siOther
  deriving DecidableEq, Repr

/-- `BT_RECV_BUFLEN`. -/
def btRecvBuflen : Nat := 1496

/-- The buffer a datagram is received into. -/
abbrev RecvBuffer := Octets btRecvBuflen

theorem RecvBuffer.offset_lt {offset length : Nat} (within : offset + length ≤ btRecvBuflen)
    (index : Fin length) : offset + index < btRecvBuflen := by
  omega

/-- A run of bytes inside the buffer. -/
def RecvBuffer.slice (buff : RecvBuffer) (offset length : Nat)
    (within : offset + length ≤ btRecvBuflen) : Bytes :=
  List.ofFn fun index : Fin length => buff ⟨offset + index, offset_lt within index⟩

@[simp] theorem RecvBuffer.length_slice (buff : RecvBuffer) (offset length : Nat)
    (within : offset + length ≤ btRecvBuflen) :
    (buff.slice offset length within).length = length := by
  simp [slice]

/-- `recvfrom` into a buffer that may hold an earlier datagram: bytes that are
not overwritten stay, and what does not fit is dropped. -/
def RecvBuffer.recvfrom (buff : RecvBuffer) (datagram : Bytes) : RecvBuffer :=
  fun index => datagram.getD index (buff index)

/-- `bt_job_params_t`: request raw data.  `recvfrom` never returns more than it
was asked for. -/
structure BtJobParams where
  buff : RecvBuffer
  buflen : Nat
  fromAddr : SockaddrPtr
  buflen_le : buflen ≤ btRecvBuflen

/-- The job the receive loop pushes for a datagram.  The buffer is cloned as a
whole, the address is passed by reference. -/
def BtJobParams.received (buff : RecvBuffer) (datagram : Bytes) : BtJobParams where
  buff := buff.recvfrom datagram
  buflen := min datagram.length btRecvBuflen
  fromAddr := .siOther
  buflen_le := Nat.min_le_right ..

end BtTracker
