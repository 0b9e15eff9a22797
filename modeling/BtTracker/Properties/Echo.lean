import BtTracker.Correctness.Answer
import BtTracker.Correctness.Update

/-!
# What a response repeats of its request

Five functions copy the action and the transaction of a request into a response,
each with its own conversions of the byte order.  Whatever happens to Redis, a
response is addressed to the transaction of its datagram, and it either reports
an error or answers the action of a request that was accepted.
-/

namespace BtTracker

open BtTracker.Foundation

/-- The block starts with an action and a transaction in network order. -/
def Headed (action transactionId : BitVec 32) (data : Block) : Prop :=
  Block.ofBytes (ByteOrder.big.store action ++ ByteOrder.big.store transactionId) <+: data

namespace Headed

variable {action transactionId : BitVec 32} {data : Block}

theorem take_eq (headed : Headed action transactionId data) :
    data.take 4 = Block.ofBytes (ByteOrder.big.store action) := by
  obtain ⟨rest, rfl⟩ := headed
  rw [Block.ofBytes_append, List.append_assoc, List.take_left' (by simp)]

theorem drop_eq (headed : Headed action transactionId data) :
    (data.drop 4).take 4 = Block.ofBytes (ByteOrder.big.store transactionId) := by
  obtain ⟨rest, rfl⟩ := headed
  rw [Block.ofBytes_append, List.append_assoc, List.drop_left' (by simp), List.take_left' (by simp)]

end Headed

section Responses

variable (host : Host)

private theorem headed_ofBytes (action transactionId : BitVec 32) (fields : Bytes) (rest : Block) :
    Headed action transactionId (Block.ofBytes (host.order.store (htonl host action) ++
      (host.order.store (htonl host transactionId) ++ fields)) ++ rest) := by
  have network (word : BitVec 32) :
      host.order.store (htonl host word) = ByteOrder.big.store word := store_ntoh host word rfl
  refine ⟨Block.ofBytes fields ++ rest, ?_⟩
  simp only [network, Block.ofBytes_append, List.append_assoc]

theorem errorBlock_headed (transactionId : BitVec 32) (msg : Bytes) :
    Headed BtAction.error.toWord transactionId (errorBlock host transactionId msg) := by
  rw [errorBlock, List.append_assoc]
  exact headed_ofBytes host _ _ _ _

theorem connectionBlock_headed (resp : BtConnectionResp) :
    Headed resp.action resp.transactionId (connectionBlock host resp) := by
  rw [connectionBlock, List.append_assoc, ← List.append_nil (Block.ofBytes _)]
  exact headed_ofBytes host _ _ _ _

theorem announceHeader_headed (resp : BtAnnounceResp) (peers : Bytes) :
    Headed resp.action resp.transactionId (Block.ofBytes (announceHeader host resp ++ peers)) := by
  rw [announceHeader, ← List.append_nil (Block.ofBytes _)]
  simp only [List.append_assoc]
  exact headed_ofBytes host _ _ _ _

theorem scrapeHeader_headed (resp : BtScrapeResp) (entries : Bytes) :
    Headed resp.action resp.transactionId (Block.ofBytes (scrapeHeader host resp ++ entries)) := by
  rw [scrapeHeader, ← List.append_nil (Block.ofBytes _), List.append_assoc]
  exact headed_ofBytes host _ _ _ _

end Responses

variable (host : Host) (config : BtConfig) (world : World) (arrival : Arrival)

/-- A response to a datagram repeats its transaction and its action, or reports
an error, and anything but an error answers a request that was accepted. -/
structure Echoes (data : Block) : Prop where
  transaction : (data.drop 4).take 4 = Block.ofBytes (arrival.params.buff.slice 12 4 (by decide))
  action : data.take 4 = Block.ofBytes [0, 0, 0, 3] ∨
    data.take 4 = Block.ofBytes (arrival.params.buff.slice 8 4 (by decide))
  warranted : data.take 4 ≠ Block.ofBytes [0, 0, 0, 3] →
    (arrival.action host = some .connect ∨ arrival.action host = some .announce ∨
      arrival.action host = some .scrape) ∧ world.Accepted host config arrival

namespace Echoes

variable {host config world arrival} {data : Block}

theorem of_error
    (headed : Headed BtAction.error.toWord (arrival.request host).transactionId data) :
    Echoes host config world arrival data := by
  have error : data.take 4 = Block.ofBytes [0, 0, 0, 3] := headed.take_eq
  refine ⟨?_, .inl error, fun other => absurd error other⟩
  rw [headed.drop_eq]
  exact congrArg Block.ofBytes (RecvBuffer.store_ntoh_word _ _ rfl)

theorem of_answer
    (headed : Headed (arrival.request host).action (arrival.request host).transactionId data)
    (kind : arrival.action host = some .connect ∨ arrival.action host = some .announce ∨
      arrival.action host = some .scrape) (accepted : world.Accepted host config arrival) :
    Echoes host config world arrival data := by
  refine ⟨?_, .inr ?_, fun _ => ⟨kind, accepted⟩⟩
  · rw [headed.drop_eq]
    exact congrArg Block.ofBytes (RecvBuffer.store_ntoh_word _ _ rfl)
  · rw [headed.take_eq]
    exact congrArg Block.ofBytes (RecvBuffer.store_ntoh_word _ _ rfl)

end Echoes

/-! ## The two handlers that gather data -/

/-- What the program of a handler returns is all that is sent after it. -/
private theorem sent_of_returns {program : Worker Block} {post : Block → Prop}
    (observes : program.Observes) (returns : Worker.Returns program post) (params : BtJobParams)
    {ready : World} (unsent : ready.sent = []) {response : SockaddrIn × Block}
    (member : response ∈ (ready.run ((some <$> program) >>= respond params)).2.sent) :
    post response.2 := by
  rw [World.run_answer_respond observes, unsent, List.nil_append] at member
  cases result : ready.run program with
  | mk outcome after =>
      rw [result] at member
      cases outcome with
      | error reason => cases member
      | ok data =>
          cases List.mem_singleton.mp member
          exact (returns ready trivial data after result trivial).1

theorem serve_echoes_of_admitted (admitted : world.Admitted host config arrival)
    {response : SockaddrIn × Block} (member : response ∈ (world.serve host config arrival).2.sent) :
    Echoes host config world arrival response.2 := by
  have returns := answerAnnounce_returns host config (world.acquired config arrival).1
    (arrival.request host) (arrival.announce host) (infoHashText (arrival.announce host).infoHash)
    (arrival.isSeeder host)
  rw [world.serve_of_admitted host config arrival admitted] at member
  obtain ⟨resp, peers, action, transaction, written⟩ := sent_of_returns
    (answerAnnounce_observes ..) returns _
    (world.updated_sent host config arrival admitted.accepted.1) member
  have headed := announceHeader_headed host resp (peers.flatMap (peerEntry host))
  rw [← written, action, transaction] at headed
  exact .of_answer headed (.inr (.inl admitted.action)) admitted.accepted

theorem serve_echoes_of_scraped (action : arrival.action host = some .scrape)
    (accepted : world.Accepted host config arrival) {response : SockaddrIn × Block}
    (member : response ∈ (world.serve host config arrival).2.sent) :
    Echoes host config world arrival response.2 := by
  have returns := answerScrape_returns host config (world.acquired config arrival).1
    (arrival.request host)
  have observes (scrapeRequest : BtScrapeReq) := (answerScrape_browses host
    (world.acquired config arrival).1 config (arrival.request host) scrapeRequest :
      Worker.Browses (fun _ => False) _).observes
  rw [world.serve_of_scraped host config arrival action accepted] at member
  have answered := sent_of_returns
    (Program.Performs.bind (.ofOption (by decide) _) observes)
    (.bind (Worker.returns _) fun scrapeRequest _ => returns scrapeRequest) _
    (world.validated_sent host config arrival) member
  rcases answered with ⟨msg, written⟩ | ⟨resp, repeated, transaction, written⟩
  · have headed := errorBlock_headed host (arrival.request host).transactionId msg
    rw [← written] at headed
    exact .of_error headed
  · have headed := scrapeHeader_headed host resp (resp.scrapeEntries.flatMap (statsEntry host))
    rw [← written, repeated, transaction] at headed
    exact .of_answer headed (.inr (.inr action)) accepted

/-! ## Every datagram -/

/-- Whatever the datagram and whatever becomes of Redis, a response repeats the
request it answers. -/
theorem serve_echoes :
    ∀ response ∈ (world.serve host config arrival).2.sent,
      Echoes host config world arrival response.2 := by
  intro response member
  cases world.route host config arrival with
  | unlinked context =>
      rw [(world.serve_of_unlinked host config arrival context).2.2, List.mem_singleton] at member
      rw [member]
      exact .of_error (errorBlock_headed host _ _)
  | unexplained linked action =>
      rw [world.serve_of_error host config arrival linked action, world.acquired_sent] at member
      cases member
  | rejected linked rejected harmless =>
      rw [(world.serve_of_rejected host config arrival linked rejected harmless).2.2] at member
      cases member
  | connected connected =>
      rw [(world.serve_of_connected host config arrival connected).2.2, List.mem_singleton]
        at member
      rw [member]
      exact .of_answer (connectionBlock_headed host (world.issueResponse host config arrival))
        (.inl connected.action) connected.accepted
  | refused action accepted refused =>
      rw [(world.serve_of_refused host config arrival action accepted refused).2.2,
        List.mem_singleton] at member
      rw [member]
      exact .of_error (errorBlock_headed host _ _)
  | admitted admitted => exact serve_echoes_of_admitted host config world arrival admitted member
  | scraped action accepted =>
      exact serve_echoes_of_scraped host config world arrival action accepted member

/-- A connection request gets its one response. -/
theorem serve_echoes_connect :
    ∃ response ∈ (World.start.serve .little .shipped
        (.calm ⟨1, 1⟩ (BtReq.datagram ⟨btProtocolId, 0, 7⟩))).2.sent,
      Echoes .little .shipped .start (.calm ⟨1, 1⟩ (BtReq.datagram ⟨btProtocolId, 0, 7⟩))
        response.2 := by
  have answered : (World.start.serve .little .shipped
      (.calm ⟨1, 1⟩ (BtReq.datagram ⟨btProtocolId, 0, 7⟩))).2.sent.length = 1 := by
    decide +kernel
  obtain ⟨response, member⟩ := List.exists_mem_of_length_pos (answered.symm ▸ Nat.one_pos)
  exact ⟨response, member, serve_echoes _ _ _ _ response member⟩

end BtTracker
