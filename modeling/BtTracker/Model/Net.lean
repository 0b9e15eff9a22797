import BtTracker.Foundation.Memory
import BtTracker.Model.Types

/-!
# Wire formats

`net.c` and the byte order macros it uses.  Readers take the raw receive buffer
and read it at fixed offsets, whatever the length of the datagram; writers fill
a heap block and fail when they would leave it.
-/

namespace BtTracker

open BtTracker.Foundation

variable (host : Host)

/-- Network to host order of a word: the bytes are reversed on a little-endian
machine and kept on a big-endian one. -/
def Host.ntoh {width : Nat} (word : BitVec width) : BitVec width :=
  match host.order with
  | .little => byteSwap word
  | .big => word

def ntohs (word : BitVec 16) : BitVec 16 := host.ntoh word
def htons (word : BitVec 16) : BitVec 16 := host.ntoh word
def ntohl (word : BitVec 32) : BitVec 32 := host.ntoh word
def htonl (word : BitVec 32) : BitVec 32 := host.ntoh word

/-- With the GNU C library, `byteorder.h` swaps the bytes on every machine. -/
def ntohll (word : BitVec 64) : BitVec 64 := byteSwap word
def htonll (word : BitVec 64) : BitVec 64 := byteSwap word

/-- `BT_PROTOCOL_ID`. -/
def btProtocolId : BitVec 64 := 0x41727101980

/-- `*((intN_t *) (buffer + offset))`. -/
def RecvBuffer.word (buff : RecvBuffer) (width offset : Nat)
    (within : offset + width / 8 ≤ btRecvBuflen) : BitVec width :=
  host.order.load width (buff.slice offset (width / 8) within)

/-- A byte array member filled from the buffer. -/
def RecvBuffer.octets (buff : RecvBuffer) (offset size : Nat)
    (within : offset + size ≤ btRecvBuflen) : Octets size :=
  fun index => buff ⟨offset + index, offset_lt within index⟩

def btReadRequestData (buffer : RecvBuffer) : BtReq where
  connectionId := ntohll (buffer.word host 64 0 (by decide))
  action := ntohl host (buffer.word host 32 8 (by decide))
  transactionId := ntohl host (buffer.word host 32 12 (by decide))

def btWriteErrorData (respBuffer : Block) (req : BtReq) (msg : Bytes) : Option Block := do
  let block ← respBuffer.memcpy 0 (host.order.store (htonl host req.action))
  let block ← block.memcpy 4 (host.order.store (htonl host req.transactionId))
  block.memcpy 8 (msg ++ [0])

def btWriteConnectionData (respBuffer : Block) (resp : BtConnectionResp) : Option Block := do
  let block ← respBuffer.memcpy 0 (host.order.store (htonl host resp.action))
  let block ← block.memcpy 4 (host.order.store (htonl host resp.transactionId))
  block.memcpy 8 (host.order.store (htonll resp.connectionId))

def btReadAnnounceRequestData (buffer : RecvBuffer) : BtAnnounceReq where
  infoHash := buffer.octets 16 20 (by decide)
  peerId := buffer.octets 36 20 (by decide)
  connectionId := ntohll (buffer.word host 64 0 (by decide))
  action := ntohl host (buffer.word host 32 8 (by decide))
  transactionId := ntohl host (buffer.word host 32 12 (by decide))
  downloaded := ntohll (buffer.word host 64 56 (by decide))
  left := ntohll (buffer.word host 64 64 (by decide))
  uploaded := ntohll (buffer.word host 64 72 (by decide))
  event := ntohl host (buffer.word host 32 80 (by decide))
  ipv4Addr := ntohl host (buffer.word host 32 84 (by decide))
  key := ntohl host (buffer.word host 32 88 (by decide))
  numWant := ntohl host (buffer.word host 32 92 (by decide))
  port := ntohs host (buffer.word host 16 96 (by decide))

def btWriteAnnounceResponseData (respBuffer : Block) (resp : BtAnnounceResp) :
    Option Block := do
  let block ← respBuffer.memcpy 0 (host.order.store (htonl host resp.action))
  let block ← block.memcpy 4 (host.order.store (htonl host resp.transactionId))
  let block ← block.memcpy 8 (host.order.store (htonl host resp.interval))
  let block ← block.memcpy 12 (host.order.store (htonl host resp.leechers))
  block.memcpy 16 (host.order.store (htonl host resp.seeders))

/-- The loop of `bt_write_announce_peer_data` from the `npeer`-th peer on. -/
def writePeersFrom (npeer : Nat) (respBuffer : Block) : List BtPeerAddr → Option Block
  | [] => some respBuffer
  | peer :: rest => do
      let block ← respBuffer.memcpy (20 + 6 * npeer)
        (host.order.store (htonl host peer.ipv4Addr))
      let block ← block.memcpy (24 + 6 * npeer) (host.order.store (htons host peer.port))
      writePeersFrom (npeer + 1) block rest

def btWriteAnnouncePeerData (respBuffer : Block) (peers : List BtPeerAddr) : Option Block :=
  writePeersFrom host 0 respBuffer peers

/-- Size in bytes of the member `int8_t *info_hash[20]` of `bt_scrape_req_t`:
twenty pointers. -/
def infoHashMemberSize : Nat := 160

/-- `bt_read_scrape_request_data`.  The copy length `buflen - 16` is a `size_t`,
so it wraps below sixteen; `none` is a copy that overruns the member. -/
def btReadScrapeRequestData (buffer : RecvBuffer) (buflen : Nat) : Option BtScrapeReq :=
  let copied := (BitVec.ofNat 64 buflen - 16).toNat
  if within : copied ≤ infoHashMemberSize then
    some {
      infoHashLen := copied / 20
      infoHash := buffer.slice 16 copied
        (by simp only [infoHashMemberSize] at within; simp only [btRecvBuflen]; omega)
      connectionId := ntohll (buffer.word host 64 0 (by decide))
      action := ntohl host (buffer.word host 32 8 (by decide))
      transactionId := ntohl host (buffer.word host 32 12 (by decide)) }
  else
    none

/-- The loop of `bt_write_scrape_response_data` from the `nentry`-th entry on.
A whole `bt_torrent_stats_t` is copied, in the order of its members. -/
def writeEntriesFrom (nentry : Nat) (respBuffer : Block) : List BtScrapeEntry → Option Block
  | [] => some respBuffer
  | entry :: rest => do
      let block ← respBuffer.memcpy (8 + 12 * nentry)
        (host.order.store (htonl host entry.seeders) ++
          host.order.store (htonl host entry.downloads) ++
          host.order.store (htonl host entry.leechers))
      writeEntriesFrom (nentry + 1) block rest

def btWriteScrapeResponseData (respBuffer : Block) (resp : BtScrapeResp) : Option Block := do
  let block ← respBuffer.memcpy 0 (host.order.store (htonl host resp.action))
  let block ← block.memcpy 4 (host.order.store (htonl host resp.transactionId))
  writeEntriesFrom host 0 block resp.scrapeEntries

end BtTracker
