import BtTracker.Correctness.Scrapes
import BtTracker.Properties.Responses

/-!
# Scrapes

How many info hashes a scrape carries is computed from the length of its datagram,
after a check that asks for eight bytes only, and they are copied into a member
that has room for eight of them.  From there on entries and info hashes stay in
step: the list is built back to front, reversed, and written in order.
-/

namespace BtTracker

open BtTracker.Foundation

variable {host : Host} {config : BtConfig} {world : World}

/-! ## Reading the info hashes -/

/-- Up to eight info hashes are decoded as they were received. -/
theorem exists_btReadScrapeRequestData (host : Host) (buff : RecvBuffer) {buflen : Nat}
    (long : 16 ≤ buflen) (short : buflen ≤ 176) (within : 16 + (buflen - 16) ≤ btRecvBuflen) :
    ∃ decoded, btReadScrapeRequestData host buff buflen = some decoded ∧
      decoded.infoHashLen = (buflen - 16) / 20 ∧
      decoded.infoHash = buff.slice 16 (buflen - 16) within := by
  have bounded : buflen ≤ btRecvBuflen := by omega
  have copied := toNat_copied long bounded
  have fits := (scrape_copy_fits long bounded).mpr short
  refine ⟨_, dif_pos fits, ?_, ?_⟩
  · exact congrArg (· / 20) copied
  · simp only [copied]

/-- Anything else overruns the member. -/
theorem btReadScrapeRequestData_eq_none (buff : RecvBuffer) {buflen : Nat}
    (bounded : buflen ≤ btRecvBuflen) (outside : ¬(16 ≤ buflen ∧ buflen ≤ 176)) :
    btReadScrapeRequestData host buff buflen = none := by
  rw [btReadScrapeRequestData, dif_neg]
  by_cases long : 16 ≤ buflen
  · rw [scrape_copy_fits long bounded]
    omega
  · have wrapped := le_toNat_copied (Nat.not_le.mp long)
    rw [infoHashMemberSize]
    omega

/-- The copy fits, and the info hashes that are looked up one after the other are
those of the datagram. -/
structure ScrapeRead (host : Host) (config : BtConfig) (redis : Option Context)
    (params : BtJobParams) (datagram : Bytes) (n : Nat) : Prop where
  fits : (BitVec.ofNat 64 params.buflen - 16).toNat ≤ infoHashMemberSize
  looked : ∃ decoded, btReadScrapeRequestData host params.buff params.buflen = some decoded ∧
    scrapeLoop redis config decoded 256 0 [] = scrapeEach redis config
      ((List.range n).map fun k => (datagram.drop (16 + 20 * k)).take 20) []

/-- Info hashes that were copied from a datagram stand where it has them. -/
theorem BtScrapeReq.hashes_of_copied {decoded : BtScrapeReq} {datagram : Bytes} {n : Nat}
    (counted : decoded.infoHashLen = n)
    (copied : decoded.infoHash = (datagram.drop 16).take (20 * n)) :
    decoded.hashes = (List.range n).map fun k => (datagram.drop (16 + 20 * k)).take 20 := by
  rw [hashes, counted, copied]
  apply List.map_congr_left
  intro k member
  have inside := List.mem_range.mp member
  rw [List.drop_take, List.take_take, List.drop_drop]
  congr 1
  · omega
  · congr 1
    omega

/-- Eight info hashes are as many as twenty pointers have room for. -/
theorem scrapeRead_iff {datagram : Bytes} {n : Nat} (carried : datagram.length = 16 + 20 * n)
    (received : datagram.length ≤ btRecvBuflen) (host : Host) (config : BtConfig)
    (redis : Option Context) (buff : RecvBuffer) :
    ScrapeRead host config redis (.received buff datagram) datagram n ↔ n ≤ 8 := by
  have buflen : (BtJobParams.received buff datagram).buflen = 16 + 20 * n := by
    change min datagram.length btRecvBuflen = _
    rw [Nat.min_eq_left received, carried]
  rw [carried] at received
  constructor
  · intro read
    have fits := read.fits
    rw [buflen, scrape_copy_fits (by omega) received] at fits
    omega
  · intro few
    have long : 16 ≤ 16 + 20 * n := by omega
    have short : 16 + 20 * n ≤ 176 := by omega
    obtain ⟨decoded, read, counted, copied⟩ := exists_btReadScrapeRequestData host
      (buff.recvfrom datagram) long short (by omega)
    rw [← buflen] at long short read
    refine ⟨(scrape_copy_fits long (BtJobParams.buflen_le _)).mpr short, decoded, read, ?_⟩
    have counted : decoded.infoHashLen = n := by omega
    have bytes : decoded.infoHash = (datagram.drop 16).take (20 * n) := by
      rw [copied, RecvBuffer.slice_recvfrom buff datagram (by omega)]
      congr 1
      omega
    have held : decoded.infoHashLen * 20 ≤ decoded.infoHash.length := by
      rw [bytes, List.length_take, List.length_drop]
      omega
    rw [scrapeLoop_eq (by omega) held, BtScrapeReq.hashes_of_copied counted bytes]

/-- A scrape of the given number of info hashes. -/
def scrapeDatagram (n : Nat) : Bytes :=
  BtReq.datagram ⟨0, BtAction.scrape.toWord, 9⟩ ++ List.replicate (20 * n) 65

/-- Two info hashes. -/
theorem scrapeRead_two : ScrapeRead .little .shipped (some 0)
    (.received (fun _ => 0) (scrapeDatagram 2)) (scrapeDatagram 2) 2 :=
  (scrapeRead_iff (by decide) (by decide) _ _ _ _).mpr (by decide)

/-- Nine info hashes are copied past the end of the member. -/
theorem not_scrapeRead_nine : ¬ScrapeRead .little .shipped (some 0)
    (.received (fun _ => 0) (scrapeDatagram 9)) (scrapeDatagram 9) 9 := by
  intro read
  exact absurd read.fits (by decide +kernel)

/-! ## Counting the info hashes -/

/-- The copy length is what follows the header, and `info_hash_len` is the number of
whole info hashes in it. -/
structure LengthKept (buflen : Nat) : Prop where
  unwrapped : ((BitVec.ofNat 64 buflen - 16).toNat : Int) = buflen - 16
  counted : (((BitVec.ofNat 64 buflen - 16).toNat / 20 : Nat) : Int) = (buflen - 16) / 20

theorem lengthKept_iff {buflen : Nat} (bounded : buflen ≤ btRecvBuflen) :
    LengthKept buflen ↔ 16 ≤ buflen := by
  constructor
  · intro kept
    by_contra short
    have wrapped := le_toNat_copied (Nat.not_le.mp short)
    have unwrapped := kept.unwrapped
    omega
  · intro long
    constructor
    · rw [toNat_copied long bounded]
      omega
    · rw [toNat_copied long bounded]
      omega

/-- The length of the datagram is kept, and the loop goes once through as many info
hashes as were received. -/
structure ScrapeCounted (host : Host) (config : BtConfig) (redis : Option Context)
    (params : BtJobParams) : Prop where
  length : LengthKept params.buflen
  rounds : ∃ decoded, btReadScrapeRequestData host params.buff params.buflen = some decoded ∧
    decoded.infoHashLen = (params.buflen - 16) / 20 ∧
    scrapeLoop redis config decoded 256 0 [] = scrapeEach redis config decoded.hashes []

/-- The length is kept as soon as there is a whole header.  The loop is reached only
if the copy before it stays in its member. -/
theorem scrapeCounted_iff (host : Host) (config : BtConfig) (redis : Option Context)
    (params : BtJobParams) :
    (LengthKept params.buflen ↔ 16 ≤ params.buflen) ∧
      (ScrapeCounted host config redis params ↔ 16 ≤ params.buflen ∧ params.buflen ≤ 176) := by
  have bounded := params.buflen_le
  refine ⟨lengthKept_iff bounded, ?_⟩
  constructor
  · intro counted
    by_contra outside
    obtain ⟨decoded, read, -⟩ := counted.rounds
    rw [btReadScrapeRequestData_eq_none params.buff bounded outside] at read
    cases read
  · intro inside
    obtain ⟨long, short⟩ := inside
    obtain ⟨decoded, read, counted, copied⟩ := exists_btReadScrapeRequestData host params.buff
      long short (by omega)
    have held : decoded.infoHashLen * 20 ≤ decoded.infoHash.length := by
      rw [counted, copied, RecvBuffer.length_slice]
      omega
    exact ⟨(lengthKept_iff bounded).mpr long, decoded, read, counted,
      scrapeLoop_eq (by omega) held redis⟩

/-- Eight bytes, received into a buffer that holds an earlier scrape. -/
def shortScrape : BtJobParams :=
  .received (RecvBuffer.recvfrom (fun _ => 0) (scrapeDatagram 1)) (List.replicate 8 0)

/-- They are accepted, and the length of what follows their header wraps around. -/
theorem not_scrapeCounted_short :
    (World.start.run (btValidRequest .little (some 0) .shipped
        (btReadRequestData .little shortScrape.buff) shortScrape.buflen)).1 = .ok true ∧
      ¬ScrapeCounted .little .shipped (some 0) shortScrape := by
  constructor
  · decide +kernel
  · intro counted
    exact absurd counted.length.unwrapped (by decide)

/-! ## The response -/

/-- Either one info hash is refused and the response is an error, or there is an
entry for every info hash, in the order of the request. -/
structure ScrapeAnswered (host : Host) (config : BtConfig) (request : BtReq) (store : Redis.Store)
    (hashes : List (Octets 20)) (outcome : Except Fault Block) : Prop where
  refused : (∃ hash ∈ hashes, Refused config store (infoHashText hash)) →
    outcome = .ok (errorBlock host request.transactionId (ascii "Blacklisted info hash"))
  answered : (∀ hash ∈ hashes, ¬Refused config store (infoHashText hash)) →
    ∃ data : Block, outcome = .ok data ∧ data.length = 8 + 12 * hashes.length ∧
      data.take 8 = Block.ofBytes (ByteOrder.big.store request.action ++
        ByteOrder.big.store request.transactionId) ∧
      ∀ k (inside : k < hashes.length), (data.drop (8 + 12 * k)).take 12 = Block.ofBytes
        (ByteOrder.big.store (torrentEntry config store (infoHashText hashes[k])).seeders ++
          ByteOrder.big.store (torrentEntry config store (infoHashText hashes[k])).downloads ++
          ByteOrder.big.store (torrentEntry config store (infoHashText hashes[k])).leechers)

/-- The response with the statistics of the requested torrents. -/
def scrapeBlock (host : Host) (config : BtConfig) (request : BtReq) (store : Redis.Store)
    (hashes : List (Octets 20)) : Block :=
  .ofBytes (scrapeHeader host ⟨request.action, request.transactionId, []⟩ ++
    hashes.flatMap fun hash => statsEntry host (torrentEntry config store (infoHashText hash)))

section Response

variable {scrapeRequest : BtScrapeReq} {hashes : List (Octets 20)}

/-- The part of `bt_handle_scrape` after decoding, in closed form. -/
theorem World.Normal.run_answerScrape (normal : world.Normal) (request : BtReq)
    (holds : scrapeRequest.Holds hashes) (few : hashes.length < 256) (redis : Context) :
    (world.run (answerScrape host request config scrapeRequest (some redis))).1 =
      .ok (if hashes.any fun hash => refusedBy config world.store (infoHashText hash) then
          errorBlock host request.transactionId (ascii "Blacklisted info hash")
        else scrapeBlock host config request world.store hashes) := by
  have looped := normal.run_scrapeEach config redis hashes []
  rw [answerScrape, scrapeLoop_eq (by rw [holds.counted]; exact few) holds.length_le,
    holds.hashes_eq]
  cases refused : hashes.any fun hash => refusedBy config world.store (infoHashText hash) with
  | true =>
      simp only [refused, if_true] at looped ⊢
      rw [World.run_bind_of_ok (Prod.ext looped rfl)]
      dsimp only
      rw [btSendError_eq]
      rfl
  | false =>
      simp only [refused, Bool.false_eq_true, if_false, List.append_nil] at looped ⊢
      rw [World.run_bind_of_ok (Prod.ext looped rfl)]
      dsimp only
      rw [List.reverse_reverse, btSerializeScrapeResponse_eq]
      simp only [scrapeBlock, scrapeHeader, List.flatMap_map]
      rfl

/-- Entries are found where the info hashes they belong to stand in the request. -/
theorem entry_scrapeBlock (host : Host) (config : BtConfig) (request : BtReq)
    (store : Redis.Store) {k : Nat} (inside : k < hashes.length) :
    ((scrapeBlock host config request store hashes).drop (8 + 12 * k)).take 12 =
      Block.ofBytes (statsEntry host (torrentEntry config store (infoHashText hashes[k]))) := by
  have entry := take_drop_flatMap
    (fun hash => length_statsEntry host (torrentEntry config store (infoHashText hash))) inside []
  rw [scrapeBlock, Block.ofBytes, ← List.map_drop, ← List.map_take, Nat.mul_comm, ← List.drop_drop,
    List.drop_left' (by simp), ← Block.ofBytes, ← entry, List.append_nil]

/-- Redis answering normally, a scrape is answered entry by entry in the order of its
info hashes or refused as a whole, and the database stays as it is. -/
theorem scrape_answered (normal : world.Normal) (host : Host) (config : BtConfig)
    (request : BtReq) (redis : Context) (holds : scrapeRequest.Holds hashes)
    (few : hashes.length ≤ 74) :
    ScrapeAnswered host config request world.store hashes
        (world.run (answerScrape host request config scrapeRequest (some redis))).1 ∧
      (world.run (answerScrape host request config scrapeRequest (some redis))).2.store =
        world.store := by
  refine ⟨?_, (World.run_of_observes (answerScrape_observes ..) world).1⟩
  rw [normal.run_answerScrape request holds (by omega) redis]
  constructor
  · rintro ⟨hash, member, refused⟩
    have some : (hashes.any fun hash => refusedBy config world.store (infoHashText hash)) = true :=
      List.any_eq_true.mpr ⟨hash, member, (refusedBy_iff ..).mpr refused⟩
    rw [if_pos some]
  · intro permitted
    have none : ¬(hashes.any fun hash => refusedBy config world.store (infoHashText hash)) = true := by
      rw [List.any_eq_true]
      rintro ⟨hash, member, refused⟩
      exact permitted hash member ((refusedBy_iff ..).mp refused)
    rw [if_neg none]
    refine ⟨_, rfl, ?_, ?_, ?_⟩
    · rw [scrapeBlock, Block.length_ofBytes, List.length_append, length_scrapeHeader,
        List.length_flatMap]
      simp [Nat.mul_comm]
    · rw [scrapeBlock, Block.ofBytes_append, List.take_left' (by simp), scrapeHeader, store_htonl,
        store_htonl]
    · intro k inside
      rw [entry_scrapeBlock host config request world.store inside, statsEntry_big]

end Response

/-- A scrape of the same torrent twice. -/
def repeatedScrape : BtScrapeReq where
  connectionId := 0
  action := BtAction.scrape.toWord
  transactionId := 9
  infoHashLen := 2
  infoHash := List.ofFn (BtAnnounceReq.sample 5 2).infoHash ++
    List.ofFn (BtAnnounceReq.sample 5 2).infoHash

/-- Both entries show the leecher that has announced itself. -/
theorem scrape_answered_repeated :
    ScrapeAnswered .little .shipped ⟨0, BtAction.scrape.toWord, 9⟩
      (World.start.serve .little .shipped (.sample 5 2)).2.store
      [(BtAnnounceReq.sample 5 2).infoHash, (BtAnnounceReq.sample 5 2).infoHash]
      ((World.start.serve .little .shipped (.sample 5 2)).2.run (answerScrape .little
        ⟨0, BtAction.scrape.toWord, 9⟩ .shipped repeatedScrape (some 0))).1 := by
  have normal : (World.start.serve .little .shipped (.sample 5 2)).2.Normal :=
    World.Normal.run (fun _ => rfl) _
  have holds : repeatedScrape.Holds
      [(BtAnnounceReq.sample 5 2).infoHash, (BtAnnounceReq.sample 5 2).infoHash] :=
    ⟨rfl, [], by simp [repeatedScrape]⟩
  exact (scrape_answered normal .little .shipped _ 0 holds (by decide)).1

end BtTracker
