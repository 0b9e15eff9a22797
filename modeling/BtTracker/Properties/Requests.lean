import BtTracker.Correctness.Wire
import Mathlib.Data.List.OfFn

/-!
# Requests as clients lay them out

`bt_read_announce_request_data` reads the thirteen fields of an announce one by
one, at fixed offsets.  Together they are the layout of the protocol: encoding
what was read gives the bytes back, and since no two records share an encoding,
reading what was encoded gives the record back.
-/

namespace BtTracker

open BtTracker.Foundation

variable {host : Host}

/-! ## Neighbouring fields -/

namespace RecvBuffer

/-- Two neighbouring runs of bytes make a longer one. -/
theorem slice_append_slice (buff : RecvBuffer) {offset first second : Nat}
    (within : offset + first + second ≤ btRecvBuflen) :
    buff.slice offset first (by omega) ++ buff.slice (offset + first) second within =
      buff.slice offset (first + second) (by omega) := by
  simp only [slice, List.ofFn_add]
  congr 2
  funext index
  congr 2
  simp only [Fin.val_natAdd]
  omega

theorem ofFn_octets (buff : RecvBuffer) {offset size : Nat}
    (within : offset + size ≤ btRecvBuflen) :
    List.ofFn (buff.octets offset size within) = buff.slice offset size within := rfl

/-- The same for the fields that `byteorder.h` converts, on a little-endian
host. -/
theorem store_ntohll_word (little : host.order = .little) (buff : RecvBuffer) {offset : Nat}
    (within : offset + 64 / 8 ≤ btRecvBuflen) :
    ByteOrder.big.store (ntohll (buff.word host 64 offset within)) =
      buff.slice offset 8 within := by
  rw [ntohll_eq_ntoh host little, store_ntoh_word buff within rfl]

end RecvBuffer

/-! ## Announces -/

/-- Encoding what was read gives the bytes back. -/
theorem datagram_btReadAnnounceRequestData (little : host.order = .little) (buff : RecvBuffer) :
    (btReadAnnounceRequestData host buff).datagram = buff.slice 0 98 (by decide) := by
  have short {offset : Nat} (within : offset + 16 / 8 ≤ btRecvBuflen) :
      ByteOrder.big.store (ntohs host (buff.word host 16 offset within)) =
        buff.slice offset 2 within := RecvBuffer.store_ntoh_word buff within rfl
  have word {offset : Nat} (within : offset + 32 / 8 ≤ btRecvBuflen) :
      ByteOrder.big.store (ntohl host (buff.word host 32 offset within)) =
        buff.slice offset 4 within := RecvBuffer.store_ntoh_word buff within rfl
  simp only [BtAnnounceReq.datagram, btReadAnnounceRequestData, RecvBuffer.ofFn_octets, short,
    word, RecvBuffer.store_ntohll_word little]
  -- the fields follow each other without a gap, so the runs join from the left
  rw [RecvBuffer.slice_append_slice, RecvBuffer.slice_append_slice,
    RecvBuffer.slice_append_slice, RecvBuffer.slice_append_slice,
    RecvBuffer.slice_append_slice, RecvBuffer.slice_append_slice,
    RecvBuffer.slice_append_slice, RecvBuffer.slice_append_slice,
    RecvBuffer.slice_append_slice, RecvBuffer.slice_append_slice,
    RecvBuffer.slice_append_slice, RecvBuffer.slice_append_slice]

/-- No two announces are encoded alike. -/
theorem BtAnnounceReq.datagram_injective : Function.Injective BtAnnounceReq.datagram := by
  intro left right equal
  have word {width : Nat} {first second : BitVec width} (whole : 8 * (width / 8) = width)
      (same : ByteOrder.big.store first = ByteOrder.big.store second) : first = second :=
    ByteOrder.store_injective .big whole same
  obtain ⟨equal, port⟩ := List.append_inj' equal (by simp)
  obtain ⟨equal, numWant⟩ := List.append_inj' equal (by simp)
  obtain ⟨equal, key⟩ := List.append_inj' equal (by simp)
  obtain ⟨equal, ipv4Addr⟩ := List.append_inj' equal (by simp)
  obtain ⟨equal, event⟩ := List.append_inj' equal (by simp)
  obtain ⟨equal, uploaded⟩ := List.append_inj' equal (by simp)
  obtain ⟨equal, leftover⟩ := List.append_inj' equal (by simp)
  obtain ⟨equal, downloaded⟩ := List.append_inj' equal (by simp)
  obtain ⟨equal, peerId⟩ := List.append_inj' equal (by simp)
  obtain ⟨equal, infoHash⟩ := List.append_inj' equal (by simp)
  obtain ⟨equal, transactionId⟩ := List.append_inj' equal (by simp)
  obtain ⟨connectionId, action⟩ := List.append_inj' equal (by simp)
  cases left
  cases right
  simp only [mk.injEq]
  exact ⟨word rfl connectionId, word rfl action, word rfl transactionId, word rfl ipv4Addr,
    word rfl port, List.ofFn_injective infoHash, List.ofFn_injective peerId, word rfl downloaded,
    word rfl leftover, word rfl uploaded, word rfl key, word rfl numWant, word rfl event⟩

@[simp] theorem BtAnnounceReq.length_datagram (request : BtAnnounceReq) :
    request.datagram.length = 98 := by
  simp [datagram]

/-- Reading what was encoded gives the record back. -/
theorem btReadAnnounceRequestData_datagram (little : host.order = .little) (buff : RecvBuffer)
    (request : BtAnnounceReq) :
    btReadAnnounceRequestData host (buff.recvfrom request.datagram) = request := by
  apply BtAnnounceReq.datagram_injective
  rw [datagram_btReadAnnounceRequestData little, RecvBuffer.slice_recvfrom _ _ (by simp),
    List.drop_zero, List.take_of_length_le (by simp)]

/-! ## The header -/

/-- The three fields that every request starts with. -/
def BtAnnounceReq.header (request : BtAnnounceReq) : BtReq where
  connectionId := request.connectionId
  action := request.action
  transactionId := request.transactionId

/-- The three fields that every request starts with. -/
def BtScrapeReq.header (request : BtScrapeReq) : BtReq where
  connectionId := request.connectionId
  action := request.action
  transactionId := request.transactionId

/-- The announce reader and the layout of the protocol are inverse to each other,
and the readers of the three kinds of requests agree on the header. -/
structure RequestCodec (host : Host) (request : BtAnnounceReq) (buff : RecvBuffer)
    (length : Nat) : Prop where
  decoded : btReadAnnounceRequestData host (buff.recvfrom request.datagram) = request
  encoded : (btReadAnnounceRequestData host buff).datagram = buff.slice 0 98 (by decide)
  announce : (btReadAnnounceRequestData host buff).header = btReadRequestData host buff
  scrape : 16 ≤ length → ∃ scraped, btReadScrapeRequestData host buff length = some scraped ∧
    scraped.header = btReadRequestData host buff

/-- The readers work as long as the copy of a scrape stays in its member. -/
theorem requestCodec_iff (little : host.order = .little) (request : BtAnnounceReq)
    (buff : RecvBuffer) {length : Nat} (bounded : length ≤ btRecvBuflen) :
    RequestCodec host request buff length ↔ length ≤ 176 := by
  constructor
  · intro codec
    by_contra long
    obtain ⟨scraped, read, -⟩ := codec.scrape (by omega)
    rw [btReadScrapeRequestData, dif_neg (by rw [scrape_copy_fits (by omega) bounded]; exact long)]
      at read
    cases read
  · intro short
    constructor
    · exact btReadAnnounceRequestData_datagram little buff request
    · exact datagram_btReadAnnounceRequestData little buff
    · rfl
    · intro long
      rw [btReadScrapeRequestData, dif_pos ((scrape_copy_fits long bounded).mpr short)]
      exact ⟨_, rfl, rfl⟩

/-- A full announce. -/
theorem requestCodec_announce :
    RequestCodec .little (BtAnnounceReq.sample 5 2) (fun _ => 0) 98 :=
  (requestCodec_iff rfl _ _ (by decide)).mpr (by decide)

/-- A scrape of nine info hashes. -/
theorem not_requestCodec_nine :
    ¬RequestCodec .little (BtAnnounceReq.sample 5 2) (fun _ => 0) 196 := by
  intro codec
  obtain ⟨scraped, read, -⟩ := codec.scrape (by decide)
  rw [btReadScrapeRequestData, dif_neg (by decide)] at read
  cases read

end BtTracker
