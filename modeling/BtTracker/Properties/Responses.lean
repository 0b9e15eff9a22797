import BtTracker.Correctness.Wire
import BtTracker.Foundation.Reader

/-!
# Responses as clients read them

The layout of the three kinds of responses in the UDP tracker protocol, where
every number is in network order, and what a client finds in the blocks the
tracker serializes.
-/

namespace BtTracker

open BtTracker.Foundation

/-! ## The layout of the protocol -/

namespace Client

/-- A response to a connection request: action, transaction and the new
connection. -/
def connectionResponse : Reader BtConnectionResp := do
  let action ← .word 32
  let transactionId ← .word 32
  let connectionId ← .word 64
  pure ⟨action, transactionId, connectionId⟩

/-- The address and the port of one peer. -/
def peerAddr : Reader BtPeerAddr := do
  let ipv4Addr ← .word 32
  let port ← .word 16
  pure ⟨ipv4Addr, port⟩

/-- A response to an announce: action, transaction, interval, leechers, seeders,
and the peers. -/
def announceResponse : Reader (BtAnnounceResp × List BtPeerAddr) := do
  let action ← .word 32
  let transactionId ← .word 32
  let interval ← .word 32
  let leechers ← .word 32
  let seeders ← .word 32
  let peers ← .many peerAddr
  pure (⟨action, transactionId, interval, leechers, seeders⟩, peers)

/-- The seeders, the completed downloads and the leechers of one torrent. -/
def scrapeEntry : Reader BtScrapeEntry := do
  let seeders ← .word 32
  let completed ← .word 32
  let leechers ← .word 32
  pure ⟨seeders, completed, leechers⟩

/-- A response to a scrape: action, transaction, and the torrents. -/
def scrapeResponse : Reader BtScrapeResp := do
  let action ← .word 32
  let transactionId ← .word 32
  let entries ← .many scrapeEntry
  pure ⟨action, transactionId, entries⟩

end Client

/-! ## What the tracker writes -/

section Writers

variable {host : Host}

theorem store_htonl (word : BitVec 32) :
    host.order.store (htonl host word) = ByteOrder.big.store word :=
  store_ntoh host word rfl

theorem peerEntry_big (peer : BtPeerAddr) :
    peerEntry host peer =
      ByteOrder.big.store peer.ipv4Addr ++ ByteOrder.big.store peer.port := by
  rw [peerEntry, store_htonl, htons, store_ntoh host _ rfl]

theorem statsEntry_big (entry : BtScrapeEntry) :
    statsEntry host entry =
      ByteOrder.big.store entry.seeders ++ ByteOrder.big.store entry.downloads ++
        ByteOrder.big.store entry.leechers := by
  simp only [statsEntry, store_htonl]

theorem peerAddr_reads : Reader.Reads Client.peerAddr (peerEntry host) := by
  intro peer rest
  rw [peerEntry_big, List.append_assoc, Client.peerAddr, Reader.word_bind_apply rfl,
    Reader.word_bind_apply rfl]
  rfl

theorem scrapeEntry_reads : Reader.Reads Client.scrapeEntry (statsEntry host) := by
  intro entry rest
  simp only [statsEntry_big, List.append_assoc]
  rw [Client.scrapeEntry, Reader.word_bind_apply rfl, Reader.word_bind_apply rfl,
    Reader.word_bind_apply rfl]
  rfl

/-- Swapping the bytes of a word is the conversion to network order on a
little-endian host. -/
theorem store_htonll (little : host.order = .little) (word : BitVec 64) :
    host.order.store (htonll word) = ByteOrder.big.store word := by
  have swapped : htonll word = host.ntoh word := ntohll_eq_ntoh host little word
  rw [swapped, store_ntoh host word rfl]

end Writers

/-- A block whose bytes are all written, of a given length, in which a client
finds a given message. -/
def Carries {α : Type} (data : Block) (length : Nat) (reader : Reader α) (message : α) : Prop :=
  ∃ bytes, data = .ofBytes bytes ∧ bytes.length = length ∧ reader.decode bytes = some message

/-- What the tracker serializes is what clients read, for each kind of response.
The connection a client finds in a response is also the one the tracker finds in
the requests the client makes with it. -/
structure ResponseCodec (host : Host) : Prop where
  connection : ∀ resp, ∃ data, btSerializeConnectionResponse host resp = .done data ∧
    Carries data 16 Client.connectionResponse resp
  announce : ∀ resp peers, ∃ data,
    btSerializeAnnounceResponse host resp peers.length peers = .done data ∧
      Carries data (20 + 6 * peers.length) Client.announceResponse (resp, peers)
  scrape : ∀ resp, ∃ data, btSerializeScrapeResponse host resp = .done data ∧
    Carries data (8 + 12 * resp.scrapeEntries.length) Client.scrapeResponse resp
  returned : ∀ resp data (buff : RecvBuffer), btSerializeConnectionResponse host resp = .done data →
    Block.ofBytes (buff.slice 0 8 (by decide)) = (data.drop 8).take 8 →
      (btReadRequestData host buff).connectionId = resp.connectionId

section Little

variable {host : Host} (little : host.order = .little)
include little

/-- The bytes of a response to a connection request. -/
theorem connectionBlock_big (resp : BtConnectionResp) :
    connectionBlock host resp = .ofBytes (ByteOrder.big.store resp.action ++
      (ByteOrder.big.store resp.transactionId ++ ByteOrder.big.store resp.connectionId)) := by
  rw [connectionBlock, store_htonl, store_htonl, store_htonll little, List.append_assoc]

theorem connectionBlock_carries (resp : BtConnectionResp) :
    Carries (connectionBlock host resp) 16 Client.connectionResponse resp := by
  refine ⟨_, connectionBlock_big little resp, by simp, ?_⟩
  apply Reader.decode_of_apply
  rw [Client.connectionResponse, Reader.word_bind_apply rfl, Reader.word_bind_apply rfl]
  exact Reader.bind_apply_of_some (by simpa using Reader.word_reads rfl resp.connectionId [])

/-- The identifier in a response is read back from the requests that carry it. -/
theorem connectionId_returned (resp : BtConnectionResp) (buff : RecvBuffer)
    (sent : Block.ofBytes (buff.slice 0 8 (by decide)) =
      ((connectionBlock host resp).drop 8).take 8) :
    (btReadRequestData host buff).connectionId = resp.connectionId := by
  have received : buff.slice 0 8 (by decide) = ByteOrder.big.store resp.connectionId := by
    apply Block.ofBytes_injective
    rw [sent, connectionBlock_big little, ← List.append_assoc, Block.ofBytes_append,
      List.drop_left' (by simp), List.take_of_length_le (by simp)]
  have loaded : (btReadRequestData host buff).connectionId =
      byteSwap (ByteOrder.little.load 64 (buff.slice 0 8 (by decide))) := by
    rw [← little]
    rfl
  rw [loaded, byteSwap_load_little _ rfl (by simp), received, ByteOrder.load_store _ _ rfl]

end Little

section Any

variable (host : Host)

theorem announceBlock_carries (resp : BtAnnounceResp) (peers : List BtPeerAddr) :
    Carries (.ofBytes (announceHeader host resp ++ peers.flatMap (peerEntry host)))
      (20 + 6 * peers.length) Client.announceResponse (resp, peers) := by
  have nonempty (peer : BtPeerAddr) : peerEntry host peer ≠ [] := by
    intro empty
    have six := length_peerEntry host peer
    rw [empty] at six
    cases six
  have size : (peers.flatMap (peerEntry host)).length = 6 * peers.length := by
    simp [List.length_flatMap, Nat.mul_comm]
  refine ⟨_, rfl, by simp [size], ?_⟩
  apply Reader.decode_of_apply
  simp only [announceHeader, store_htonl, List.append_assoc]
  rw [Client.announceResponse, Reader.word_bind_apply rfl, Reader.word_bind_apply rfl,
    Reader.word_bind_apply rfl, Reader.word_bind_apply rfl, Reader.word_bind_apply rfl]
  exact Reader.bind_apply_of_some (Reader.many_flatMap peerAddr_reads nonempty peers)

theorem scrapeBlock_carries (resp : BtScrapeResp) :
    Carries (.ofBytes (scrapeHeader host resp ++ resp.scrapeEntries.flatMap (statsEntry host)))
      (8 + 12 * resp.scrapeEntries.length) Client.scrapeResponse resp := by
  have nonempty (entry : BtScrapeEntry) : statsEntry host entry ≠ [] := by
    intro empty
    have twelve := length_statsEntry host entry
    rw [empty] at twelve
    cases twelve
  have size : (resp.scrapeEntries.flatMap (statsEntry host)).length =
      12 * resp.scrapeEntries.length := by
    simp [List.length_flatMap, Nat.mul_comm]
  refine ⟨_, rfl, by simp [size], ?_⟩
  apply Reader.decode_of_apply
  simp only [scrapeHeader, store_htonl, List.append_assoc]
  rw [Client.scrapeResponse, Reader.word_bind_apply rfl, Reader.word_bind_apply rfl]
  exact Reader.bind_apply_of_some
    (Reader.many_flatMap scrapeEntry_reads nonempty resp.scrapeEntries)

end Any

/-- On a little-endian host every response is laid out as the protocol wants
it. -/
theorem responseCodec (host : Host) (little : host.order = .little) : ResponseCodec host := by
  constructor
  · intro resp
    exact ⟨_, btSerializeConnectionResponse_eq host resp, connectionBlock_carries little resp⟩
  · intro resp peers
    exact ⟨_, btSerializeAnnounceResponse_eq host resp _ peers rfl,
      announceBlock_carries host resp peers⟩
  · intro resp
    exact ⟨_, btSerializeScrapeResponse_eq host resp, scrapeBlock_carries host resp⟩
  · intro resp data buff serialized sent
    rw [btSerializeConnectionResponse_eq] at serialized
    cases serialized
    exact connectionId_returned little resp buff sent

/-- The host of the examples. -/
theorem responseCodec_little : ResponseCodec .little := responseCodec .little rfl

end BtTracker
