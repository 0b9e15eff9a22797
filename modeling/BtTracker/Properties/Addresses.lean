import BtTracker.Correctness.Answer
import BtTracker.Correctness.Reads
import BtTracker.Correctness.Swarm

/-!
# Where the addresses in an answer come from

Between the announce that brings an address and the answers that pass it on, the
address is decoded, stored as part of a record, moved from one key to another,
read back and encoded.  It arrives unchanged, and nothing is passed on that was
not announced for the same torrent recently.
-/

namespace BtTracker

open BtTracker.Foundation

variable {host : Host} {config : BtConfig} {world : World} {history : List Served}
  {arrival : Arrival}

namespace Datagram

variable (host) (datagram : Datagram)

/-- The address field of an announce: bytes 84 to 87 of the buffer. -/
def addressField : Bytes := datagram.params.buff.slice 84 4 (by decide)

/-- The port field of an announce: bytes 96 and 97 of the buffer. -/
def portField : Bytes := datagram.params.buff.slice 96 2 (by decide)

/-- The six bytes an announce wants to be known by.  A peer that leaves the
address field empty is known by the address it sends from. -/
def announcedBytes : Bytes :=
  (if datagram.addressField = [0, 0, 0, 0] then host.order.store datagram.sender.sAddr
    else datagram.addressField) ++ datagram.portField

/-- Decoding and encoding a field cancel, on either kind of host. -/
private theorem store_ntoh_ntoh_word (buff : RecvBuffer) {width offset : Nat}
    (within : offset + width / 8 ≤ btRecvBuflen) (whole : 8 * (width / 8) = width) :
    host.order.store (host.ntoh (host.ntoh (buff.word host width offset within))) =
      buff.slice offset (width / 8) within := by
  rw [ntoh_ntoh host _ whole, RecvBuffer.word,
    ByteOrder.store_load _ _ whole (RecvBuffer.length_slice ..)]

private theorem ipv4Addr_eq_zero :
    (datagram.announce host).ipv4Addr = 0 ↔ datagram.addressField = [0, 0, 0, 0] := by
  have zeros : ByteOrder.big.store (0 : BitVec 32) = [0, 0, 0, 0] := by decide
  have decoded : (datagram.announce host).ipv4Addr =
      ByteOrder.big.load 32 datagram.addressField :=
    ntoh_load host _ (by decide) (by simp)
  rw [decoded, ← zeros]
  constructor
  · intro zero
    rw [← zero, ByteOrder.store_load _ _ (by decide) (by simp [addressField])]
  · intro stored
    rw [stored, ByteOrder.load_store _ _ (by decide)]

/-- The record of an announce is passed on as the bytes it was announced with. -/
theorem peerEntry_record (padding : Octets 6) :
    peerEntry host (btNewPeerAddr (datagram.record host padding).ipv4Addr
        (datagram.record host padding).port) =
      datagram.announcedBytes host := by
  have port : host.order.store (htons host (datagram.announce host).port) =
      datagram.portField := store_ntoh_ntoh_word host _ _ (by decide)
  have address : host.order.store (htonl host (datagram.record host padding).ipv4Addr) =
      if datagram.addressField = [0, 0, 0, 0] then host.order.store datagram.sender.sAddr
      else datagram.addressField := by
    simp only [record, recordFrom, newPeer, ipv4Addr_eq_zero]
    split
    · exact congrArg host.order.store (ntoh_ntoh host _ (by decide))
    · exact store_ntoh_ntoh_word host _ _ (by decide)
  rw [announcedBytes, ← address, ← port]
  rfl

end Datagram

/-- The six bytes of an admitted announce for a torrent that was processed at a
given moment or less than the time to live before. -/
def Announced (host : Host) (config : BtConfig) (history : List Served) (infoHash : Octets 20)
    (moment : Nat) (entry : Bytes) : Prop :=
  ∃ served ∈ history, served.world.Admitted host config served.arrival ∧
    served.arrival.Registers host ∧ (served.arrival.announce host).infoHash = infoHash ∧
    served.world.store.now ≤ moment ∧
    moment < served.world.store.now + config.announcePeerTtl.toNat ∧
    entry = served.arrival.announcedBytes host

/-- A response consists of a header of twenty bytes and of entries of six bytes,
each of them announced for the torrent. -/
def Genuine (host : Host) (config : BtConfig) (history : List Served) (infoHash : Octets 20)
    (moment : Nat) (data : Block) : Prop :=
  ∃ (header : Bytes) (entries : List Bytes), data = .ofBytes (header ++ entries.flatten) ∧
    header.length = 20 ∧ ∀ entry ∈ entries, entry.length = 6 ∧
      Announced host config history infoHash moment entry

/-- Redis is never told to keep a record for longer than configured. -/
private theorem peerTtl_toNat_le (config : BtConfig) :
    config.peerTtl.toNat ≤ config.announcePeerTtl.toNat := by
  have bound := config.announcePeerTtl.isLt
  rw [BtConfig.peerTtl, BitVec.toInt_eq_toNat_cond]
  split <;> omega

/-- What is listed for a torrent was announced for it. -/
theorem Reachable.holdsPeer (reached : Reachable host config world history)
    (plain : config.Plain) {infoHash : Octets 20} {isSeeder : Bool} {key : Bytes}
    (present : world.store.find? key ≠ none)
    (accepted : Glob.isMatch
      (swarmPrefix config (infoHashText infoHash) isSeeder ++ ascii "*") key = true) :
    HoldsPeer host world.store
      (fun addr => Announced host config history infoHash world.store.now (peerEntry host addr))
      key := by
  obtain ⟨entry, found⟩ := Option.ne_none_iff_exists'.mp present
  obtain ⟨name, rfl⟩ := reached.named found
  obtain ⟨peerId, rfl⟩ := (plain.isMatch_encode host).mp accepted
  have notList : ¬(KeyName.peer infoHash isSeeder peerId).IsList := id
  obtain ⟨served, member, admitted, registers, hash, -, ⟨padding, rfl⟩, alive⟩ :=
    reached.filed notList found
  have time := peerTtl_toNat_le config
  exact ⟨served.arrival.record host padding, _, found, served, member, admitted, registers, hash,
    reached.past served member, by omega, served.arrival.peerEntry_record host padding⟩

/-- Every address in the answer to an announce was announced for the same torrent
at that moment or less than the time to live before, and is passed on byte for
byte, unless an error is taken for a record.  Replies may get lost. -/
theorem serve_genuine (plain : config.Plain) (reached : Reachable host config world history)
    (admitted : world.Admitted host config arrival)
    (honest : (world.serve host config arrival).2.Honest) :
    ∀ message ∈ (world.serve host config arrival).2.sent,
      Genuine host config (⟨world, arrival⟩ :: history) (arrival.announce host).infoHash
        world.store.now message.2 := by
  have stored := world.store_serve_of_admitted host config arrival admitted
  let genuine (addr : BtPeerAddr) : Prop :=
    Announced host config (⟨world, arrival⟩ :: history) (arrival.announce host).infoHash
      world.store.now (peerEntry host addr)
  have records (seeder : Bool) (key : Bytes)
      (present : (world.updated host config arrival).2.store.find? key ≠ none)
      (accepted : Glob.isMatch (swarmPrefix config
        (infoHashText (arrival.announce host).infoHash) seeder ++ ascii "*") key = true) :
      HoldsPeer host (world.updated host config arrival).2.store genuine key := by
    rw [← stored] at present ⊢
    have holds := (reached.serve arrival).holdsPeer plain present accepted
    rw [World.now_serve] at holds
    exact holds
  rw [World.Honest, world.serve_of_admitted host config arrival admitted,
    World.trace_run_bind_respond, World.trace_run_map] at honest
  intro message member
  rw [world.serve_of_admitted host config arrival admitted,
    World.run_answer_respond (answerAnnounce_observes ..),
    world.updated_sent host config arrival admitted.accepted.1, List.nil_append] at member
  split at member
  · rename_i data answered
    obtain ⟨⟨resp, peers, announced, rfl⟩, -⟩ := answerAnnounce_yields records
      (arrival.request host) (arrival.announce host) (arrival.isSeeder host)
      (world.updated host config arrival).2 rfl data _ (Prod.ext answered rfl) honest
    cases List.mem_singleton.mp member
    refine ⟨announceHeader host resp, peers.map (peerEntry host), ?_, by simp, ?_⟩
    · rw [List.flatMap_def]
    · intro entry listed
      obtain ⟨addr, selected, rfl⟩ := List.mem_map.mp listed
      exact ⟨length_peerEntry host addr, announced addr selected⟩
  · cases member

/-- The first peer of a torrent is told its own address. -/
theorem serve_genuine_firstAnnounce :
    (World.start.serve .little .shipped (.sample 5 2)).2.sent.map (·.2.drop 20) =
        [Block.ofBytes [10, 0, 0, 1, 26, 225]] ∧
      ∀ message ∈ (World.start.serve .little .shipped (.sample 5 2)).2.sent,
        Genuine .little .shipped [⟨.start, .sample 5 2⟩]
          ((Arrival.sample 5 2).announce .little).infoHash 0 message.2 :=
  ⟨by decide +kernel,
    serve_genuine (by decide +kernel) .fresh (by decide +kernel) (by decide +kernel)⟩

/-! ## Where they may come from nowhere -/

/-- The first entry of a response with entries was announced. -/
private theorem Genuine.first {infoHash : Octets 20} {moment : Nat} {data : Block} {bytes : Bytes}
    (genuine : Genuine host config history infoHash moment data)
    (tail : data.drop 20 = Block.ofBytes bytes) (some : bytes ≠ []) :
    Announced host config history infoHash moment (bytes.take 6) := by
  obtain ⟨header, entries, rfl, length, announced⟩ := genuine
  rw [Block.ofBytes_append, List.drop_left' (by simpa using length)] at tail
  have same := Block.ofBytes_injective tail
  subst same
  cases entries with
  | nil => exact absurd rfl some
  | cons entry rest =>
      obtain ⟨six, known⟩ := announced entry (List.mem_cons_self ..)
      rw [List.flatten_cons, List.take_left' six]
      exact known

/-- What a server says while a script keeps it busy. -/
def busy : Bytes :=
  ascii "BUSY Redis is busy running a script. You can only call SCRIPT KILL or SHUTDOWN NOSAVE."

/-- The first announce of a peer, whose record is asked for while the server is busy. -/
def busySample : Arrival where
  toDatagram := (Arrival.sample 5 2).toDatagram
  choices position := if position = 11 then { Choice.calm with delivery := .refused busy } else .calm

/-- A prefix that opens a character class. -/
def openPrefix : BtConfig := { BtConfig.shipped with redisKeyPrefix := ascii "*[" }

/-- A peer of another torrent. -/
def stranger : Arrival := .calm ⟨6881, 0x0200000a⟩
  { BtAnnounceReq.sample 5 2 with infoHash := fun _ => 7, peerId := fun _ => 58 }.datagram

/-- A tracker to which that peer just announced itself. -/
def strangerSeen : World := (World.start.serve .little openPrefix stranger).2

private theorem sent_busySample :
    (World.start.serve .little .shipped busySample).2.sent.map (·.2.drop 20) =
      [Block.ofBytes [100, 101, 82, 32, 112, 105]] := by
  decide +kernel

private theorem sent_openPrefix :
    (strangerSeen.serve .little openPrefix (.sample 5 2)).2.sent.map (·.2.drop 20) =
      [Block.ofBytes ([10, 0, 0, 2, 26, 225] ++ [10, 0, 0, 2, 26, 225])] := by
  decide +kernel

private theorem announcedBytes_sample :
    (Arrival.sample 5 2).announcedBytes .little = [10, 0, 0, 1, 26, 225] := by
  decide +kernel

private theorem infoHash_stranger_ne :
    ¬(stranger.announce .little).infoHash 0 = ((Arrival.sample 5 2).announce .little).infoHash 0 := by
  decide +kernel

/-- The words of the error are taken for an address; and with a prefix that is a
pattern, the pattern of every torrent lists the peers of others. -/
theorem not_serve_genuine :
    (World.start.Admitted .little .shipped busySample ∧
      ¬∀ message ∈ (World.start.serve .little .shipped busySample).2.sent,
        Genuine .little .shipped [⟨.start, busySample⟩] (busySample.announce .little).infoHash
          World.start.store.now message.2) ∧
    Reachable .little openPrefix strangerSeen [⟨.start, stranger⟩] ∧
      strangerSeen.Admitted .little openPrefix (.sample 5 2) ∧ (Arrival.sample 5 2).Normal ∧
      ¬∀ message ∈ (strangerSeen.serve .little openPrefix (.sample 5 2)).2.sent,
        Genuine .little openPrefix [⟨strangerSeen, .sample 5 2⟩, ⟨.start, stranger⟩]
          ((Arrival.sample 5 2).announce .little).infoHash strangerSeen.store.now message.2 := by
  refine ⟨⟨by decide +kernel, fun genuine => ?_⟩, .serve .fresh _, by decide +kernel,
    fun _ => rfl, fun genuine => ?_⟩
  · obtain ⟨message, member, tail⟩ := List.mem_map.mp (sent_busySample ▸ List.mem_singleton_self _)
    obtain ⟨served, among, -, -, -, -, -, same⟩ := (genuine message member).first tail nofun
    rw [List.mem_singleton.mp among] at same
    exact absurd (same.trans announcedBytes_sample) (by decide)
  · obtain ⟨message, member, tail⟩ := List.mem_map.mp (sent_openPrefix ▸ List.mem_singleton_self _)
    obtain ⟨served, among, -, -, hash, -, -, same⟩ := (genuine message member).first tail nofun
    rcases List.mem_pair.mp among with rfl | rfl
    · exact absurd (same.trans announcedBytes_sample) (by decide)
    · exact infoHash_stranger_ne (congrFun hash 0)

end BtTracker
