import BtTracker.Correctness.Update
import BtTracker.Correctness.Screening

/-!
# Bytes nobody sent

The receive loop reuses one buffer and clones all of it, so behind a datagram a
job finds what earlier datagrams left there.  The readers use fixed offsets;
whether they stay within the datagram is up to the lengths `bt_valid_request`
insists on.
-/

namespace BtTracker

open BtTracker.Foundation

/-- The outcome of a datagram of a length, with an action, does not depend on the
bytes behind it. -/
def Unaffected (length : Nat) (action : BitVec 32) : Prop :=
  ∀ (host : Host) (config : BtConfig) (world : World) (sender : SockaddrIn)
    (choices : Nat → Choice) (first second : BtJobParams),
    first.buflen = length → second.buflen = length →
    RecvBuffer.AgreeBelow length first.buff second.buff →
    (btReadRequestData host first.buff).action = action →
      (world.serve host config ⟨⟨first, sender⟩, choices⟩).1 =
          (world.serve host config ⟨⟨second, sender⟩, choices⟩).1 ∧
        (world.serve host config ⟨⟨first, sender⟩, choices⟩).2.sent =
          (world.serve host config ⟨⟨second, sender⟩, choices⟩).2.sent ∧
        (world.serve host config ⟨⟨first, sender⟩, choices⟩).2.store =
          (world.serve host config ⟨⟨second, sender⟩, choices⟩).2.store

/-! ## Readers that stay within the datagram -/

section Within

variable {host : Host} {config : BtConfig} {length : Nat} {first second : RecvBuffer}

theorem btReadRequestData_congr (agree : RecvBuffer.AgreeBelow length first second)
    (long : 16 ≤ length) : btReadRequestData host first = btReadRequestData host second := by
  simp only [btReadRequestData]
  rw [agree.word host (by omega), agree.word host (by omega), agree.word host (by omega)]

theorem btReadAnnounceRequestData_congr (agree : RecvBuffer.AgreeBelow length first second)
    (long : 98 ≤ length) :
    btReadAnnounceRequestData host first = btReadAnnounceRequestData host second := by
  simp (disch := omega) only [btReadAnnounceRequestData, agree.word host, agree.octets]

theorem btReadScrapeRequestData_congr (agree : RecvBuffer.AgreeBelow length first second)
    (long : 16 ≤ length) (bounded : length ≤ btRecvBuflen) :
    btReadScrapeRequestData host first length = btReadScrapeRequestData host second length := by
  have copied : (BitVec.ofNat 64 length - 16).toNat = length - 16 := by
    have sixteen : (16 : BitVec 64).toNat = 16 := rfl
    have fits : (BitVec.ofNat 64 length).toNat = length := by
      simp only [btRecvBuflen] at bounded
      rw [BitVec.toNat_ofNat]
      omega
    rw [BitVec.toNat_sub_of_le (by rw [BitVec.le_def, fits, sixteen]; exact long), fits, sixteen]
  simp only [btReadScrapeRequestData]
  split
  · rw [agree.slice (by omega), agree.word host (by omega), agree.word host (by omega),
      agree.word host (by omega)]
  · rfl

/-- What names a peer's record stands before the port. -/
theorem recordName_congr (host : Host) (agree : RecvBuffer.AgreeBelow length first second)
    (long : 72 ≤ length) :
    (btReadAnnounceRequestData host first).infoHash =
        (btReadAnnounceRequestData host second).infoHash ∧
      (btReadAnnounceRequestData host first).peerId =
        (btReadAnnounceRequestData host second).peerId ∧
      (btReadAnnounceRequestData host first).left =
        (btReadAnnounceRequestData host second).left := by
  simp (disch := omega) only [btReadAnnounceRequestData, agree.word host, agree.octets, and_self]

/-- An announce that is too short is dropped before it is decoded. -/
theorem btHandleAnnounce_short {request : BtReq} {redis : Option Context}
    (action : BtAction.ofWord? request.action = some .announce) (short : length < 20)
    (buff : RecvBuffer) (clientAddr : SockaddrPtr) :
    btHandleAnnounce host request config buff length clientAddr redis = .done none := by
  have rejected : ¬length ≥ 20 := by omega
  simp only [btHandleAnnounce, btValidRequest, action, rejected, if_false]
  rfl

/-- Jobs for datagrams that are long enough, or too short to be decoded, run the
same program. -/
theorem btRequestProcessor_congr {first second : BtJobParams}
    (same : first.buflen = second.buflen)
    (agree : RecvBuffer.AgreeBelow first.buflen first.buff second.buff)
    (long : 16 ≤ first.buflen)
    (announce : BtAction.ofWord? (btReadRequestData host first.buff).action = some .announce →
      first.buflen < 20 ∨ 98 ≤ first.buflen) :
    btRequestProcessor host config first = btRequestProcessor host config second := by
  have request : btReadRequestData host first.buff = btReadRequestData host second.buff :=
    btReadRequestData_congr agree long
  have address : first.fromAddr = second.fromAddr := by
    cases first.fromAddr
    cases second.fromAddr
    rfl
  have handlers (redis : Option Context) (error : Option Bytes) :
      dispatch host config first (btReadRequestData host first.buff) error redis =
        dispatch host config second (btReadRequestData host first.buff) error redis := by
    rw [dispatch, dispatch, ← same, ← address]
    cases action : BtAction.ofWord? (btReadRequestData host first.buff).action with
    | none => rfl
    | some kind =>
        cases kind with
        | connect | error => rfl
        | announce =>
            rcases announce action with short | full
            · dsimp only
              rw [btHandleAnnounce_short action short, btHandleAnnounce_short action short]
            · simp only [btHandleAnnounce, btReadAnnounceRequestData_congr agree full]
        | scrape =>
            simp only [btHandleScrape,
              btReadScrapeRequestData_congr agree long first.buflen_le]
  have responses : respond first = respond second := by
    funext response
    cases response with
    | none => rfl
    | some data => rw [respond, respond, address]
  have errors : dispatch host config first
      { btReadRequestData host first.buff with action := BtAction.error.toWord }
        (some storageUnavailable) none =
      dispatch host config second
        { btReadRequestData host first.buff with action := BtAction.error.toWord }
          (some storageUnavailable) none := by
    rw [dispatch, dispatch, BtAction.ofWord?_toWord]
  simp only [btRequestProcessor, ← request, responses, errors, handlers]

end Within

/-! ## Readers that leave the datagram -/

/-- A job for a buffer of which a part was just received. -/
private def jobFor (buff : RecvBuffer) (length : Nat) (bounded : length ≤ btRecvBuflen) :
    BtJobParams := ⟨buff, length, .siOther, bounded⟩

/-- An environment without Redis. -/
private def downChoice : Choice := { Choice.calm with connect := fun _ => .noMemory }

/-- The response to any request while Redis is down. -/
private theorem sent_of_down (params : BtJobParams) :
    (World.start.serve .little .shipped ⟨⟨params, ⟨1, 1⟩⟩, fun _ => downChoice⟩).2.sent =
      [(⟨1, 1⟩, errorBlock .little (btReadRequestData .little params.buff).transactionId
        storageUnavailable)] := by
  have unlinked : (World.start.acquired .shipped
      ⟨⟨params, ⟨1, 1⟩⟩, fun _ => downChoice⟩).1 = none := by
    by_contra linked
    obtain ⟨redis, opened⟩ :=
      (World.start.linked_iff .shipped _).mp (Option.isSome_iff_ne_none.mpr linked)
    cases opened
  exact (World.start.serve_of_unlinked .little .shipped _ unlinked).2.2

/-- With Redis down, the transaction identifier is returned even if it was never
sent. -/
theorem affected_of_short {length : Nat} (short : length < 16) (action : BitVec 32) :
    ¬Unaffected length action := by
  intro unaffected
  let buffer (transactionId : BitVec 32) : RecvBuffer :=
    RecvBuffer.recvfrom (fun _ => 0) (BtReq.datagram ⟨0, action, transactionId⟩)
  have bounded : length ≤ btRecvBuflen := by simp only [btRecvBuflen]; omega
  have agree : RecvBuffer.AgreeBelow 15 (buffer 0) (buffer 1) := by
    have tails : (ByteOrder.big.store (0 : BitVec 32)).take 3 =
        (ByteOrder.big.store (1 : BitVec 32)).take 3 := by decide
    refine RecvBuffer.agreeBelow_recvfrom _ ?_ (by simp) (by simp)
    simpa [BtReq.datagram, List.take_append] using tails
  have outcome := unaffected .little .shipped .start ⟨1, 1⟩ (fun _ => downChoice)
    (jobFor (buffer 0) length bounded) (jobFor (buffer 1) length bounded) rfl rfl
    (agree.mono (by omega)) (btReadRequestData_datagram ..).1
  have sent := outcome.2.1
  rw [sent_of_down, sent_of_down] at sent
  simp only [jobFor, buffer, (btReadRequestData_datagram ..).2] at sent
  exact absurd sent (by decide +kernel)

/-- A fresh tracker stores what it reads of an announce, however short. -/
private theorem find?_serve_truncated {length : Nat} (long : 20 ≤ length)
    (bounded : length ≤ btRecvBuflen) {buff : RecvBuffer}
    (action : (btReadRequestData .little buff).action = BtAction.announce.toWord)
    (event : BtAnnounceEvent.ofWord? (btReadAnnounceRequestData .little buff).event =
      some .started) :
    (World.start.serve .little .shipped
        ⟨⟨jobFor buff length bounded, ⟨1, 1⟩⟩, fun _ => .calm⟩).2.store.find?
      (peerKey .shipped (infoHashText (btReadAnnounceRequestData .little buff).infoHash)
        (decide ((btReadAnnounceRequestData .little buff).left = 0))
        (btReadAnnounceRequestData .little buff).peerId) =
      some ⟨.string ((newPeer (btReadAnnounceRequestData .little buff)
        (ntohl .little 1) fun _ => 0).image .little),
          some (0 + BtConfig.shipped.peerTtl.toNat)⟩ := by
  have admitted : World.start.Admitted .little .shipped
      ⟨⟨jobFor buff length bounded, ⟨1, 1⟩⟩, fun _ => .calm⟩ :=
    World.admitted_of_missing rfl ⟨0, rfl⟩ (fun _ => rfl)
      (BtAction.ofWord?_eq_some.mpr action) long (Redis.Store.find?_empty _)
  have registers : Datagram.Registers .little ⟨jobFor buff length bounded, ⟨1, 1⟩⟩ := .inr event
  rw [World.start.store_serve_of_admitted_normal .little .shipped _ admitted fun _ => rfl,
    Datagram.find?_update_of_registers registers,
    World.residue_of_choices .little .shipped _ _ fun _ => rfl]
  exact if_pos ⟨by decide, rfl⟩

/-- An announce that ends with a port. -/
private def portBuffer (port : BitVec 16) : RecvBuffer :=
  RecvBuffer.recvfrom (fun _ => 0) { BtAnnounceReq.sample 5 2 with port := port }.datagram

private theorem portBuffer_decoded {port : BitVec 16} (known : port = 6881 ∨ port = 6882) :
    (btReadRequestData .little (portBuffer port)).action = BtAction.announce.toWord ∧
      BtAnnounceEvent.ofWord? (btReadAnnounceRequestData .little (portBuffer port)).event =
        some .started := by
  rcases known with rfl | rfl
  · exact ⟨by decide +kernel, by decide +kernel⟩
  · exact ⟨by decide +kernel, by decide +kernel⟩

/-- Records with different ports are different. -/
private theorem portBuffer_image_ne :
    (newPeer (btReadAnnounceRequestData .little (portBuffer 6881))
        (ntohl .little 1) fun _ => 0).image .little ≠
      (newPeer (btReadAnnounceRequestData .little (portBuffer 6882))
        (ntohl .little 1) fun _ => 0).image .little := by
  intro equal
  have stored := congrArg (fun image => (image.drop peerPortOffset).take 2) equal
  simp only [BtPeer.port_image] at stored
  have ports : (btReadAnnounceRequestData .little (portBuffer 6881)).port =
      (btReadAnnounceRequestData .little (portBuffer 6882)).port :=
    ByteOrder.store_injective _ rfl stored
  exact absurd ports (by decide +kernel)

/-- A truncated announce registers its peer with a port nobody sent. -/
theorem affected_of_truncated {length : Nat} (long : 20 ≤ length) (truncated : length < 98) :
    ¬Unaffected length BtAction.announce.toWord := by
  intro unaffected
  have bounded : length ≤ btRecvBuflen := by simp only [btRecvBuflen]; omega
  have agree : RecvBuffer.AgreeBelow 97 (portBuffer 6881) (portBuffer 6882) :=
    RecvBuffer.agreeBelow_recvfrom _ (by decide +kernel) (by decide +kernel) (by decide +kernel)
  obtain ⟨firstAction, firstEvent⟩ := portBuffer_decoded (.inl rfl)
  obtain ⟨secondAction, secondEvent⟩ := portBuffer_decoded (.inr rfl)
  have outcome := unaffected .little .shipped .start ⟨1, 1⟩ (fun _ => .calm)
    (jobFor (portBuffer 6881) length bounded) (jobFor (portBuffer 6882) length bounded) rfl rfl
    (agree.mono (by omega)) firstAction
  have first := find?_serve_truncated long bounded firstAction firstEvent
  have second := find?_serve_truncated long bounded secondAction secondEvent
  obtain ⟨hash, peer, left⟩ := recordName_congr .little agree (by decide)
  rw [← hash, ← peer, ← left] at second
  rw [outcome.2.2, second] at first
  injection first with entries
  injection entries with values
  injection values with images
  exact portBuffer_image_ne images.symm

/-! ## Which datagrams are safe -/

/-- The outcome depends on received bytes only, exactly if the datagram holds a
whole header and, for an announce, is either dropped for its length or
complete. -/
theorem unaffected_iff (length : Nat) (action : BitVec 32) :
    Unaffected length action ↔
      16 ≤ length ∧ (action = BtAction.announce.toWord → length < 20 ∨ 98 ≤ length) := by
  constructor
  · intro unaffected
    refine ⟨?_, ?_⟩
    · by_contra short
      exact affected_of_short (by omega) action unaffected
    · rintro rfl
      by_contra truncated
      exact affected_of_truncated (by omega) (by omega) unaffected
  · rintro ⟨long, announce⟩ host config world sender choices first second rfl same agree acts
    have programs : btRequestProcessor host config first =
        btRequestProcessor host config second := by
      refine btRequestProcessor_congr same.symm agree long fun kind => announce ?_
      rw [← acts, ← BtAction.ofWord?_eq_some]
      exact kind
    simp only [World.serve, World.receive, programs, and_self]

/-- Twenty bytes of an announce are not enough. -/
theorem not_unaffected : ¬Unaffected 20 BtAction.announce.toWord :=
  affected_of_truncated (by decide) (by decide)

end BtTracker
