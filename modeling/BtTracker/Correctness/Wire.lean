import BtTracker.Model.Handlers

/-!
# Responses in closed form

Every writer fills its block from left to right, so a serialized response is the
concatenation of its fields.  This module computes those concatenations and
shows that words converted for the network are big-endian on either host.
-/

namespace BtTracker

open BtTracker.Foundation

variable (host : Host)

/-! ## Byte order -/

/-- The memory image of a word converted to network order is big-endian. -/
theorem store_ntoh {width : Nat} (word : BitVec width) (whole : 8 * (width / 8) = width) :
    host.order.store (host.ntoh word) = ByteOrder.big.store word := by
  cases order : host.order with
  | little =>
      have swapped : host.ntoh word =
          ByteOrder.little.load width (ByteOrder.big.store word) := by
        simp only [Host.ntoh, order, byteSwap, ByteOrder.load, ByteOrder.store,
          ByteOrder.arrange]
      rw [swapped, ByteOrder.store_load _ _ whole (by simp)]
  | big => simp only [Host.ntoh, order]

/-- Reading a word in host order and converting it reads it big-endian. -/
theorem ntoh_load {width : Nat} (bytes : Bytes) (whole : 8 * (width / 8) = width)
    (length : bytes.length = width / 8) :
    host.ntoh (host.order.load width bytes) = ByteOrder.big.load width bytes := by
  cases order : host.order with
  | little => simp only [Host.ntoh, order, byteSwap_load_little bytes whole length]
  | big => simp only [Host.ntoh, order]

theorem ntoh_ntoh {width : Nat} (word : BitVec width) (whole : 8 * (width / 8) = width) :
    host.ntoh (host.ntoh word) = word := by
  cases order : host.order with
  | little => simp only [Host.ntoh, order, byteSwap_byteSwap word whole]
  | big => simp only [Host.ntoh, order]

/-- The bytes of an eight-byte word are reversed on every host, which is the
conversion for a little-endian one. -/
theorem ntohll_eq_ntoh (little : host.order = .little) (word : BitVec 64) :
    ntohll word = host.ntoh word := by
  rw [ntohll, Host.ntoh, little]

/-! ## Reading the buffer -/

namespace RecvBuffer

/-- Two buffers with the same bytes up to a length. -/
def AgreeBelow (length : Nat) (first second : RecvBuffer) : Prop :=
  ∀ index : Fin btRecvBuflen, index.val < length → first index = second index

variable {length : Nat} {first second : RecvBuffer}

theorem AgreeBelow.slice (agree : AgreeBelow length first second) {offset size : Nat}
    (inside : offset + size ≤ length) (within : offset + size ≤ btRecvBuflen) :
    first.slice offset size within = second.slice offset size within := by
  simp only [RecvBuffer.slice]
  congr 1
  funext index
  exact agree _ (by simp only; omega)

theorem AgreeBelow.word (agree : AgreeBelow length first second) {width offset : Nat}
    (inside : offset + width / 8 ≤ length) (within : offset + width / 8 ≤ btRecvBuflen) :
    first.word host width offset within = second.word host width offset within := by
  rw [RecvBuffer.word, agree.slice inside, RecvBuffer.word]

theorem AgreeBelow.octets (agree : AgreeBelow length first second) {offset size : Nat}
    (inside : offset + size ≤ length) (within : offset + size ≤ btRecvBuflen) :
    first.octets offset size within = second.octets offset size within := by
  funext index
  exact agree _ (by simp only; omega)

variable {host} in
/-- A field that was converted from network order is encoded as it was read. -/
theorem store_ntoh_word (buff : RecvBuffer) {width offset : Nat}
    (within : offset + width / 8 ≤ btRecvBuflen) (whole : 8 * (width / 8) = width) :
    ByteOrder.big.store (host.ntoh (buff.word host width offset within)) =
      buff.slice offset (width / 8) within := by
  rw [RecvBuffer.word, ntoh_load host _ whole (by simp), ByteOrder.store_load _ _ whole (by simp)]

/-- What was received can be read back. -/
theorem slice_recvfrom (buff : RecvBuffer) (datagram : Bytes) {offset size : Nat}
    (inside : offset + size ≤ datagram.length) (within : offset + size ≤ btRecvBuflen) :
    (buff.recvfrom datagram).slice offset size within = (datagram.drop offset).take size := by
  apply List.ext_getElem
  · simp only [length_slice, List.length_take, List.length_drop]
    omega
  · intro index inSlice inList
    have inDatagram : offset + index < datagram.length := by
      rw [length_slice] at inSlice
      omega
    simp only [slice, recvfrom, List.getElem_ofFn, List.getElem_take, List.getElem_drop,
      List.getD_eq_getElem?_getD, List.getElem?_eq_getElem inDatagram, Option.getD_some]

/-- Datagrams that start alike fill the buffer alike. -/
theorem agreeBelow_recvfrom (buff : RecvBuffer) {left right : Bytes}
    (same : left.take length = right.take length) (leftLong : length ≤ left.length)
    (rightLong : length ≤ right.length) :
    AgreeBelow length (buff.recvfrom left) (buff.recvfrom right) := by
  intro index inside
  have equal : (left.take length)[index.val]? = (right.take length)[index.val]? := by rw [same]
  rw [List.getElem?_take_of_lt inside, List.getElem?_take_of_lt inside,
    List.getElem?_eq_getElem (by omega), List.getElem?_eq_getElem (by omega)] at equal
  simp only [recvfrom, List.getD_eq_getElem?_getD]
  rw [List.getElem?_eq_getElem (by omega), List.getElem?_eq_getElem (by omega), equal]

/-- Where a datagram was written, it does not matter what the buffer held before. -/
theorem agreeBelow_received (first second : RecvBuffer) (datagram : Bytes) :
    AgreeBelow datagram.length (first.recvfrom datagram) (second.recvfrom datagram) := by
  intro index inside
  simp only [recvfrom, List.getD_eq_getElem?_getD, List.getElem?_eq_getElem inside,
    Option.getD_some]

theorem AgreeBelow.mono (agree : AgreeBelow length first second) {shorter : Nat}
    (less : shorter ≤ length) : AgreeBelow shorter first second :=
  fun index inside => agree index (Nat.lt_of_lt_of_le inside less)

end RecvBuffer

/-! ## Requests -/

/-- The header of a request as a client lays it out. -/
def BtReq.datagram (request : BtReq) : Bytes :=
  ByteOrder.big.store request.connectionId ++ ByteOrder.big.store request.action ++
    ByteOrder.big.store request.transactionId

@[simp] theorem BtReq.length_datagram (request : BtReq) : request.datagram.length = 16 := by
  simp [datagram]

/-- The action and the transaction of a request arrive as they were sent. -/
theorem btReadRequestData_datagram (buff : RecvBuffer) (request : BtReq) :
    (btReadRequestData host (buff.recvfrom request.datagram)).action = request.action ∧
      (btReadRequestData host (buff.recvfrom request.datagram)).transactionId =
        request.transactionId := by
  have action : (request.datagram.drop 8).take 4 = ByteOrder.big.store request.action := by
    rw [BtReq.datagram, List.append_assoc, List.drop_left' (by simp), List.take_left' (by simp)]
  have transaction : (request.datagram.drop 12).take 4 =
      ByteOrder.big.store request.transactionId := by
    rw [BtReq.datagram, List.drop_left' (by simp), List.take_of_length_le (by simp)]
  simp only [btReadRequestData, ntohl, RecvBuffer.word]
  constructor
  · rw [ntoh_load host _ (by decide) (by simp), RecvBuffer.slice_recvfrom _ _ (by simp), action,
      ByteOrder.load_store _ _ (by decide)]
  · rw [ntoh_load host _ (by decide) (by simp), RecvBuffer.slice_recvfrom _ _ (by simp),
      transaction, ByteOrder.load_store _ _ (by decide)]

/-- An announce as a client lays it out. -/
def BtAnnounceReq.datagram (request : BtAnnounceReq) : Bytes :=
  ByteOrder.big.store request.connectionId ++ ByteOrder.big.store request.action ++
    ByteOrder.big.store request.transactionId ++ List.ofFn request.infoHash ++
    List.ofFn request.peerId ++ ByteOrder.big.store request.downloaded ++
    ByteOrder.big.store request.left ++ ByteOrder.big.store request.uploaded ++
    ByteOrder.big.store request.event ++ ByteOrder.big.store request.ipv4Addr ++
    ByteOrder.big.store request.key ++ ByteOrder.big.store request.numWant ++
    ByteOrder.big.store request.port

/-- An announce by some peer of some torrent, for use in examples. -/
def BtAnnounceReq.sample (left : BitVec 64) (event : BitVec 32) : BtAnnounceReq where
  connectionId := 0
  action := BtAction.announce.toWord
  transactionId := 9
  ipv4Addr := 0
  port := 6881
  infoHash := fun index => BitVec.ofNat 8 index
  peerId := fun index => BitVec.ofNat 8 (index + 65)
  downloaded := 0
  left := left
  uploaded := 0
  key := 0
  numWant := 50
  event := event

/-! ## Scrape requests -/

/-- `buflen - 16` for a datagram that has a whole header. -/
theorem toNat_copied {length : Nat} (long : 16 ≤ length) (bounded : length ≤ btRecvBuflen) :
    (BitVec.ofNat 64 length - 16).toNat = length - 16 := by
  have sixteen : (16 : BitVec 64).toNat = 16 := rfl
  have exact64 : (BitVec.ofNat 64 length).toNat = length := by
    simp only [btRecvBuflen] at bounded
    rw [BitVec.toNat_ofNat]
    omega
  rw [BitVec.toNat_sub_of_le (by rw [BitVec.le_def, exact64, sixteen]; exact long), exact64,
    sixteen]

/-- The copy of a scrape stays in its member up to eight info hashes. -/
theorem scrape_copy_fits {length : Nat} (long : 16 ≤ length) (bounded : length ≤ btRecvBuflen) :
    (BitVec.ofNat 64 length - 16).toNat ≤ infoHashMemberSize ↔ length ≤ 176 := by
  rw [toNat_copied long bounded, infoHashMemberSize]
  omega

/-- Without a whole header, `buflen - 16` wraps around. -/
theorem le_toNat_copied {length : Nat} (short : length < 16) :
    2 ^ 64 - 16 ≤ (BitVec.ofNat 64 length - 16).toNat := by
  have sixteen : (16 : BitVec 64).toNat = 16 := rfl
  rw [BitVec.toNat_sub, BitVec.toNat_ofNat, sixteen]
  omega

/-! ## Peer records -/

/-- The address stands behind the key. -/
theorem BtPeer.addr_image (peer : BtPeer) :
    ((peer.image host).drop peerAddrOffset).take 4 = host.order.store peer.ipv4Addr := by
  simp only [image, List.append_assoc]
  rw [List.drop_left' (by simp [peerAddrOffset]), List.take_left' (by simp)]

/-- The port is the last member. -/
theorem BtPeer.port_image (peer : BtPeer) :
    ((peer.image host).drop peerPortOffset).take 2 = host.order.store peer.port := by
  have split : peer.image host =
      (host.order.store peer.key ++ host.order.store peer.ipv4Addr ++
        host.order.store peer.downloaded ++ host.order.store peer.uploaded ++
        host.order.store peer.left) ++ (host.order.store peer.port ++ List.ofFn peer.padding) := by
    simp only [image, List.append_assoc]
  rw [split, List.drop_left' (by simp [peerPortOffset]), List.take_left' (by simp)]

/-- The address and the port of a stored record are read back. -/
theorem readPeerAddr_image (peer : BtPeer) :
    readPeerAddr host (.string (peer.image host)) =
      .done (btNewPeerAddr peer.ipv4Addr peer.port) := by
  have long : peerPortOffset + 2 ≤ (peer.image host).length := by
    simp [BtPeer.image, peerPortOffset]
  simp only [readPeerAddr, Redis.Reply.str, long, if_true, BtPeer.addr_image, BtPeer.port_image]
  rw [ByteOrder.load_store _ _ (by decide), ByteOrder.load_store _ _ (by decide)]
  rfl

/-- Size of a `bt_peer_t`. -/
def peerSize : Nat := 40

/-- The address in a full record; nothing if there is none. -/
def recordedAddr : Option Redis.Entry → Option BtPeerAddr
  | some ⟨.string text, _⟩ =>
      if text.length = peerSize then
        some (btNewPeerAddr
          (host.order.load 32 ((text.drop peerAddrOffset).take 4))
          (host.order.load 16 ((text.drop peerPortOffset).take 2)))
      else none
  | _ => none

/-- What the tracker stores is a full record. -/
theorem recordedAddr_image (peer : BtPeer) (expiresAt : Option Nat) :
    recordedAddr host (some ⟨.string (peer.image host), expiresAt⟩) =
      some (btNewPeerAddr peer.ipv4Addr peer.port) := by
  have full : (peer.image host).length = peerSize := by simp [BtPeer.image, peerSize]
  rw [recordedAddr, if_pos full, BtPeer.addr_image, BtPeer.port_image,
    ByteOrder.load_store _ _ (by decide), ByteOrder.load_store _ _ (by decide)]

/-- A full record is read as it was stored. -/
theorem readPeerAddr_of_recorded {store : Redis.Store} {key : Bytes} {addr : BtPeerAddr}
    (recorded : recordedAddr host (store.find? key) = some addr) (listing : Redis.Listing) :
    readPeerAddr host (store.exec listing (.get key)).1 = .done addr := by
  cases found : store.find? key with
  | none =>
      rw [found] at recorded
      cases recorded
  | some entry =>
      rw [found] at recorded
      cases entry with
      | mk value expiresAt =>
          cases value with
          | hash fields => cases recorded
          | set members => cases recorded
          | string text =>
              rw [recordedAddr] at recorded
              split at recorded
              · rename_i full
                cases recorded
                have long : peerPortOffset + 2 ≤ text.length := by
                  rw [full, peerSize, peerPortOffset]
                  decide
                simp only [Redis.Store.exec, found, readPeerAddr, Redis.Reply.str, long, if_true]
                rfl
              · cases recorded

/-! ## Error responses -/

/-- The block sent for an error: the fields of the response, and fifty-six bytes
nobody wrote. -/
def errorBlock (transactionId : BitVec 32) (msg : Bytes) : Block :=
  .ofBytes (host.order.store (htonl host BtAction.error.toWord) ++
    host.order.store (htonl host transactionId) ++ (msg ++ [0])) ++ .malloc 56

theorem btSendError_eq (request : BtReq) (msg : Bytes) :
    btSendError host request (some msg) =
      .done (errorBlock host request.transactionId msg) := by
  have written : btWriteErrorData host (Block.malloc (64 + msg.length + 1))
      { request with action := BtAction.error.toWord } msg =
        some (errorBlock host request.transactionId msg) := by
    simp only [btWriteErrorData, errorBlock, Option.bind_eq_bind]
    rw [Block.memcpy_malloc _ _ (by simp; omega), Option.bind_some,
      Block.memcpy_behind _ _ _ _ (by simp) (by simp; omega), Option.bind_some,
      Block.memcpy_behind _ _ _ _ (by simp) (by simp; omega)]
    congr 3
    simp only [ByteOrder.length_store, List.length_append, List.length_singleton]
    omega
  simp only [btSendError, written, Program.ofOption_some]

/-! ## Connection responses -/

/-- The response to a connection request. -/
def connectionBlock (resp : BtConnectionResp) : Block :=
  .ofBytes (host.order.store (htonl host resp.action) ++
    host.order.store (htonl host resp.transactionId) ++
    host.order.store (htonll resp.connectionId))

theorem btSerializeConnectionResponse_eq (resp : BtConnectionResp) :
    btSerializeConnectionResponse host resp = .done (connectionBlock host resp) := by
  have written : btWriteConnectionData host (Block.malloc 16) resp =
      some (connectionBlock host resp) := by
    simp only [btWriteConnectionData, connectionBlock, Option.bind_eq_bind]
    rw [Block.memcpy_malloc _ _ (by simp), Option.bind_some,
      Block.memcpy_behind _ _ _ _ (by simp) (by simp), Option.bind_some,
      Block.memcpy_behind _ _ _ _ (by simp) (by simp)]
    simp only [ByteOrder.length_store, Nat.reduceDiv, Nat.reduceSub, Block.malloc_zero,
      List.append_nil]
  simp only [btSerializeConnectionResponse, written, Program.ofOption_some]

/-! ## Announce responses -/

/-- The fixed part of an announce response. -/
def announceHeader (resp : BtAnnounceResp) : Bytes :=
  host.order.store (htonl host resp.action) ++
    host.order.store (htonl host resp.transactionId) ++
    host.order.store (htonl host resp.interval) ++
    host.order.store (htonl host resp.leechers) ++
    host.order.store (htonl host resp.seeders)

/-- The six bytes of one peer. -/
def peerEntry (peer : BtPeerAddr) : Bytes :=
  host.order.store (htonl host peer.ipv4Addr) ++ host.order.store (htons host peer.port)

@[simp] theorem length_announceHeader (resp : BtAnnounceResp) :
    (announceHeader host resp).length = 20 := by
  simp [announceHeader]

@[simp] theorem length_peerEntry (peer : BtPeerAddr) : (peerEntry host peer).length = 6 := by
  simp [peerEntry]

theorem btWriteAnnounceResponseData_eq (resp : BtAnnounceResp) (room : Nat) :
    btWriteAnnounceResponseData host (Block.malloc (20 + room)) resp =
      some (Block.ofBytes (announceHeader host resp) ++ Block.malloc room) := by
  simp only [btWriteAnnounceResponseData, announceHeader, Option.bind_eq_bind]
  rw [Block.memcpy_malloc _ _ (by simp; omega), Option.bind_some,
    Block.memcpy_behind _ _ _ _ (by simp) (by simp; omega), Option.bind_some,
    Block.memcpy_behind _ _ _ _ (by simp) (by simp; omega), Option.bind_some,
    Block.memcpy_behind _ _ _ _ (by simp) (by simp; omega), Option.bind_some,
    Block.memcpy_behind _ _ _ _ (by simp) (by simp; omega)]
  congr 3
  simp only [ByteOrder.length_store]
  omega

/-- Invariant of the peer loop: the block is written up to the current peer and
has room for the remaining ones. -/
theorem writePeersFrom_eq (peers : List BtPeerAddr) (written : Bytes) (npeer : Nat)
    (position : written.length = 20 + 6 * npeer) :
    writePeersFrom host npeer (Block.ofBytes written ++ Block.malloc (6 * peers.length)) peers =
      some (Block.ofBytes (written ++ peers.flatMap (peerEntry host))) := by
  induction peers generalizing written npeer with
  | nil => simp [writePeersFrom]
  | cons peer rest ih =>
      simp only [writePeersFrom, Option.bind_eq_bind]
      rw [Block.memcpy_behind _ _ _ _ position.symm (by simp; omega), Option.bind_some,
        Block.memcpy_behind _ _ _ _ (by simp; omega) (by simp; omega), Option.bind_some]
      have remaining : 6 * (peer :: rest).length -
          (host.order.store (htonl host peer.ipv4Addr)).length -
          (host.order.store (htons host peer.port)).length = 6 * rest.length := by
        simp only [List.length_cons, ByteOrder.length_store]
        omega
      rw [remaining, List.append_assoc written, ← peerEntry,
        ih (written ++ peerEntry host peer) (npeer + 1) (by simp; omega)]
      simp

/-- The response to an announce whose counter agrees with its list of peers. -/
theorem btSerializeAnnounceResponse_eq (resp : BtAnnounceResp) (peerCount : Nat)
    (peers : List BtPeerAddr) (counted : peers.length = peerCount) :
    btSerializeAnnounceResponse host resp peerCount peers =
      .done (Block.ofBytes (announceHeader host resp ++ peers.flatMap (peerEntry host))) := by
  subst counted
  have size : 20 + peers.length * 6 = 20 + 6 * peers.length := by omega
  simp only [btSerializeAnnounceResponse, Option.bind_eq_bind, size]
  rw [btWriteAnnounceResponseData_eq, Option.bind_some, btWriteAnnouncePeerData,
    writePeersFrom_eq host peers _ 0 (by simp)]
  rfl

/-! ## Scrape responses -/

/-- The fixed part of a scrape response. -/
def scrapeHeader (resp : BtScrapeResp) : Bytes :=
  host.order.store (htonl host resp.action) ++ host.order.store (htonl host resp.transactionId)

/-- The twelve bytes of one torrent. -/
def statsEntry (entry : BtScrapeEntry) : Bytes :=
  host.order.store (htonl host entry.seeders) ++ host.order.store (htonl host entry.downloads) ++
    host.order.store (htonl host entry.leechers)

@[simp] theorem length_scrapeHeader (resp : BtScrapeResp) :
    (scrapeHeader host resp).length = 8 := by
  simp [scrapeHeader]

@[simp] theorem length_statsEntry (entry : BtScrapeEntry) : (statsEntry host entry).length = 12 := by
  simp [statsEntry]

/-- Invariant of the loop over the torrents: the block is written up to the
current one and has room for the remaining ones. -/
theorem writeEntriesFrom_eq (entries : List BtScrapeEntry) (written : Bytes) (nentry : Nat)
    (position : written.length = 8 + 12 * nentry) :
    writeEntriesFrom host nentry
        (Block.ofBytes written ++ Block.malloc (12 * entries.length)) entries =
      some (Block.ofBytes (written ++ entries.flatMap (statsEntry host))) := by
  induction entries generalizing written nentry with
  | nil => simp [writeEntriesFrom]
  | cons entry rest ih =>
      have remaining : 12 * (entry :: rest).length - (statsEntry host entry).length =
          12 * rest.length := by
        simp only [List.length_cons, length_statsEntry]
        omega
      simp only [writeEntriesFrom, Option.bind_eq_bind]
      rw [← statsEntry, Block.memcpy_behind _ _ _ _ position.symm (by simp),
        Option.bind_some, remaining,
        ih (written ++ statsEntry host entry) (nentry + 1) (by simp; omega)]
      simp

theorem btSerializeScrapeResponse_eq (resp : BtScrapeResp) :
    btSerializeScrapeResponse host resp =
      .done (Block.ofBytes (scrapeHeader host resp ++
        resp.scrapeEntries.flatMap (statsEntry host))) := by
  have size : 8 + resp.scrapeEntries.length * 12 - (host.order.store (htonl host resp.action)).length -
      (host.order.store (htonl host resp.transactionId)).length = 12 * resp.scrapeEntries.length := by
    simp only [ByteOrder.length_store]
    omega
  have written : btWriteScrapeResponseData host
      (Block.malloc (8 + resp.scrapeEntries.length * 12)) resp =
        some (Block.ofBytes (scrapeHeader host resp ++
          resp.scrapeEntries.flatMap (statsEntry host))) := by
    simp only [btWriteScrapeResponseData, Option.bind_eq_bind]
    rw [Block.memcpy_malloc _ _ (by simp; omega), Option.bind_some,
      Block.memcpy_behind _ _ _ _ (by simp) (by simp; omega), Option.bind_some, size,
      ← scrapeHeader, writeEntriesFrom_eq host _ _ 0 (by simp)]
  rw [btSerializeScrapeResponse, written, Program.ofOption_some]

end BtTracker
