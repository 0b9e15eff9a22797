import BtTracker.Correctness.Wire

/-!
# Byte order of eight-byte fields

With the GNU C library, `byteorder.h` reverses the bytes of an eight-byte field on
every host, while the C library converts a four-byte field as the host needs it.
The two agree on a little-endian host.  On a big-endian one they agree for those
fields only that read the same backwards, and the identifier of the protocol is
none of them, so that no client can connect.
-/

namespace BtTracker

open BtTracker.Foundation

variable {host : Host}

/-! ## Conversions -/

/-- Eight bytes off the wire are converted to their big-endian value, as they are by
halves, and the two conversions undo each other. -/
structure Converts (host : Host) (wire : Octets 8) : Prop where
  value : ntohll (host.order.load 64 (List.ofFn wire)) = ByteOrder.big.load 64 (List.ofFn wire)
  halves : ntohll (host.order.load 64 (List.ofFn wire)) =
    ntohl host (host.order.load 32 ((List.ofFn wire).take 4)) ++
      ntohl host (host.order.load 32 ((List.ofFn wire).drop 4))
  undone : ∀ word, htonll (ntohll word) = word ∧ ntohll (htonll word) = word

/-- What `ntohll` makes of eight bytes that were read on a little-endian host. -/
theorem ntohll_load_little {bytes : Bytes} (length : bytes.length = 8) :
    ntohll (ByteOrder.little.load 64 bytes) = ByteOrder.big.load 64 bytes :=
  byteSwap_load_little bytes rfl length

/-- A big-endian host has read their value already. -/
theorem ntohll_load_big {bytes : Bytes} (length : bytes.length = 8) :
    ntohll (ByteOrder.big.load 64 bytes) = ByteOrder.little.load 64 bytes :=
  byteSwap_load_big bytes rfl length

theorem ntohll_load_iff (order : ByteOrder) {bytes : Bytes} (length : bytes.length = 8) :
    ntohll (order.load 64 bytes) = ByteOrder.big.load 64 bytes ↔
      order = .little ∨ bytes.reverse = bytes := by
  cases order with
  | little => simp [ntohll_load_little length]
  | big =>
      have backwards : ByteOrder.little.store (ByteOrder.little.load 64 bytes) = bytes :=
        ByteOrder.store_load _ _ rfl length
      have stored : ByteOrder.big.store (ByteOrder.little.load 64 bytes) = bytes.reverse :=
        congrArg List.reverse backwards
      rw [ntohll_load_big length, ByteOrder.eq_load_iff .big rfl length, stored]
      simp [eq_comm]

/-- The conversion of the four-byte halves is right on every host. -/
theorem ntohl_halves (host : Host) {bytes : Bytes} (length : bytes.length = 8) :
    (ntohl host (host.order.load 32 (bytes.take 4)) ++
        ntohl host (host.order.load 32 (bytes.drop 4)) : BitVec 64) =
      ByteOrder.big.load 64 bytes := by
  have first : (bytes.take 4).length = 4 := by
    rw [List.length_take, length]
    rfl
  have second : (bytes.drop 4).length = 4 := by
    rw [List.length_drop, length]
  have joined := ByteOrder.load_big_append (by decide : 8 * (32 / 8) = 32)
    (by decide : 8 * (32 / 8) = 32) first second
  rw [List.take_append_drop] at joined
  rw [ntohl, ntohl, ntoh_load host _ rfl first, ntoh_load host _ rfl second]
  exact joined.symm

theorem converts_iff (host : Host) (wire : Octets 8) :
    Converts host wire ↔
      host.order = .little ∨ (List.ofFn wire).reverse = List.ofFn wire := by
  have length : (List.ofFn wire).length = 8 := List.length_ofFn
  constructor
  · intro converts
    exact (ntohll_load_iff host.order length).mp converts.value
  · intro agree
    have value := (ntohll_load_iff host.order length).mpr agree
    refine ⟨value, ?_, fun word => ?_⟩
    · rw [value, ntohl_halves host length]
    · exact ⟨byteSwap_byteSwap word rfl, byteSwap_byteSwap word rfl⟩

/-! ## Connects -/

/-- A datagram with a whole header and the action of a connect. -/
def IsConnect (datagram : Bytes) : Prop :=
  16 ≤ datagram.length ∧
    (datagram.drop 8).take 4 = ByteOrder.big.store BtAction.connect.toWord

instance (datagram : Bytes) : Decidable (IsConnect datagram) :=
  inferInstanceAs (Decidable (_ ∧ _))

/-- A connect is accepted if it starts with the identifier of the protocol, and
rejected if it does not. -/
def ConnectJudged (host : Host) (config : BtConfig) (redis : Option Context) (buff : RecvBuffer)
    (datagram : Bytes) : Prop :=
  btValidRequest host redis config
      (btReadRequestData host (BtJobParams.received buff datagram).buff)
      (BtJobParams.received buff datagram).buflen =
    .done (decide (datagram.take 8 = ByteOrder.big.store btProtocolId))

namespace IsConnect

variable {datagram : Bytes} (connect : IsConnect datagram)

include connect in
theorem action_eq (host : Host) (buff : RecvBuffer) :
    (btReadRequestData host (buff.recvfrom datagram)).action = BtAction.connect.toWord := by
  have long : 8 + 32 / 8 ≤ datagram.length := Nat.le_trans (by decide) connect.1
  simp only [btReadRequestData, ntohl, RecvBuffer.word]
  rw [ntoh_load host _ (by decide) (by simp), RecvBuffer.slice_recvfrom _ _ long, connect.2,
    ByteOrder.load_store _ _ (by decide)]

include connect in
theorem connectionId_eq (host : Host) (buff : RecvBuffer) :
    (btReadRequestData host (buff.recvfrom datagram)).connectionId =
      ntohll (host.order.load 64 (datagram.take 8)) := by
  have long : 0 + 64 / 8 ≤ datagram.length := Nat.le_trans (by decide) connect.1
  simp only [btReadRequestData, RecvBuffer.word]
  rw [RecvBuffer.slice_recvfrom _ _ long, List.drop_zero]

include connect in
theorem length_take : (datagram.take 8).length = 8 := by
  rw [List.length_take]
  exact Nat.min_eq_left (Nat.le_trans (by decide) connect.1)

include connect in
/-- A connect is judged by what the conversion makes of its first eight bytes. -/
theorem judged_iff (host : Host) (config : BtConfig) (redis : Option Context)
    (buff : RecvBuffer) :
    ConnectJudged host config redis buff datagram ↔
      (btProtocolId = ntohll (host.order.load 64 (datagram.take 8)) ↔
        datagram.take 8 = ByteOrder.big.store btProtocolId) := by
  have long : 16 ≤ min datagram.length btRecvBuflen := Nat.le_min.mpr ⟨connect.1, by decide⟩
  rw [ConnectJudged, btValidRequest]
  simp only [BtJobParams.received, connect.action_eq, BtAction.ofWord?_toWord,
    connect.connectionId_eq, ge_iff_le, long, and_true]
  simp

end IsConnect

/-- On a big-endian host the identifier is looked for backwards. -/
theorem connectJudged_iff {datagram : Bytes} (connect : IsConnect datagram) (host : Host)
    (config : BtConfig) (redis : Option Context) (buff : RecvBuffer) :
    ConnectJudged host config redis buff datagram ↔
      host.order = .little ∨ (datagram.take 8 ≠ ByteOrder.big.store btProtocolId ∧
        datagram.take 8 ≠ ByteOrder.little.store btProtocolId) := by
  have length := connect.length_take
  rw [connect.judged_iff]
  cases host.order with
  | little =>
      rw [ntohll_load_little length, ByteOrder.eq_load_iff .big rfl length]
      simp
  | big =>
      rw [ntohll_load_big length, ByteOrder.eq_load_iff .little rfl length]
      have different : ByteOrder.little.store btProtocolId ≠ ByteOrder.big.store btProtocolId := by
        decide
      constructor
      · intro same
        refine .inr ⟨fun forwards => ?_, fun backwards => ?_⟩
        · exact different ((same.mpr forwards).symm.trans forwards)
        · exact different (backwards.symm.trans (same.mp backwards))
      · rintro (little | ⟨notForwards, notBackwards⟩)
        · cases little
        · exact ⟨fun backwards => absurd backwards notBackwards,
            fun forwards => absurd forwards notForwards⟩

/-! ## All hosts -/

/-- Every eight-byte field is converted, and every connect is judged as it should. -/
structure ConvertsAlways (host : Host) : Prop where
  fields : ∀ wire, Converts host wire
  connects : ∀ config redis buff datagram, IsConnect datagram →
    ConnectJudged host config redis buff datagram

/-- A connect as clients send it. -/
def sampleConnectDatagram : Bytes := BtReq.datagram ⟨btProtocolId, BtAction.connect.toWord, 7⟩

/-- `byteorder.h` is right for little-endian hosts; on a big-endian one it is right for
fields that read the same backwards, and for connects that carry the identifier of
the protocol in neither direction. -/
theorem convertsAlways_iff (host : Host) :
    (ConvertsAlways host ↔ host.order = .little) ∧
    (∀ wire, Converts host wire ↔
      host.order = .little ∨ (List.ofFn wire).reverse = List.ofFn wire) ∧
    ∀ config redis buff datagram, IsConnect datagram →
      (ConnectJudged host config redis buff datagram ↔
        host.order = .little ∨ (datagram.take 8 ≠ ByteOrder.big.store btProtocolId ∧
          datagram.take 8 ≠ ByteOrder.little.store btProtocolId)) := by
  refine ⟨?_, converts_iff host, ?_⟩
  · constructor
    · intro always
      have judged := always.connects .shipped none (fun _ => 0) sampleConnectDatagram
        (by decide)
      rw [connectJudged_iff (by decide)] at judged
      rcases judged with little | ⟨notForwards, -⟩
      · exact little
      · exact absurd (by decide) notForwards
    · intro little
      constructor
      · intro wire
        exact (converts_iff host wire).mpr (.inl little)
      · intro config redis buff datagram connect
        exact (connectJudged_iff connect host config redis buff).mpr (.inl little)
  · intro config redis buff datagram connect
    exact connectJudged_iff connect host config redis buff

/-- A big-endian machine that clears the unused bytes. -/
def Host.big : Host := ⟨.big⟩

/-- Such a machine rejects the connect of a client. -/
theorem not_convertsAlways_big :
    IsConnect sampleConnectDatagram ∧
      sampleConnectDatagram.take 8 = ByteOrder.big.store btProtocolId ∧
      btValidRequest .big none .shipped (btReadRequestData .big
          (BtJobParams.received (fun _ => 0) sampleConnectDatagram).buff)
        (BtJobParams.received (fun _ => 0) sampleConnectDatagram).buflen = .done false ∧
      ¬ConvertsAlways .big := by
  have connect : IsConnect sampleConnectDatagram := by decide
  have forwards : sampleConnectDatagram.take 8 = ByteOrder.big.store btProtocolId := by decide
  have rejected : btValidRequest .big none .shipped (btReadRequestData .big
        (BtJobParams.received (fun _ => 0) sampleConnectDatagram).buff)
      (BtJobParams.received (fun _ => 0) sampleConnectDatagram).buflen = .done false := by
    rfl
  refine ⟨connect, forwards, rejected, ?_⟩
  intro always
  have judged := always.connects .shipped none (fun _ => 0) sampleConnectDatagram connect
  rw [ConnectJudged, rejected, decide_eq_true forwards] at judged
  cases judged

end BtTracker
