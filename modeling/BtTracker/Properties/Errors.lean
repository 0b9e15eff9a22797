import BtTracker.Correctness.Update

/-!
# Requests that ask for an error

`bt_request_processor` records an error message together with the error action
when there is no connection to Redis.  The same action may also come straight
from the datagram, and then there is no message.  Where there is one, the response
is longer than what is written into it.
-/

namespace BtTracker

open BtTracker.Foundation

variable (host : Host) (config : BtConfig) (world : World) (arrival : Arrival)

/-- Errors are sent with a message, and requests of no known kind are ignored
while Redis works. -/
structure ErrorsExplained : Prop where
  message : (world.serve host config arrival).1 ≠ .error .nullMessage
  ignored : world.RedisWorks arrival →
    arrival.action host ∉ [some .connect, some .announce, some .scrape] →
      (world.serve host config arrival).1 = .ok () ∧
        (world.serve host config arrival).2.store = world.store ∧
        (world.serve host config arrival).2.sent = []

/-- Nothing but the error action itself leads to an error without a message. -/
theorem serve_ne_nullMessage (harmless : arrival.action host ≠ some .error) :
    (world.serve host config arrival).1 ≠ .error .nullMessage := by
  cases world.route host config arrival with
  | unlinked context =>
      rw [(world.serve_of_unlinked host config arrival context).1]
      simp
  | unexplained linked action => exact absurd action harmless
  | rejected linked rejected harmless =>
      rw [(world.serve_of_rejected host config arrival linked rejected harmless).1]
      simp
  | connected connected =>
      rw [(world.serve_of_connected host config arrival connected).1]
      simp
  | refused action accepted refused =>
      rw [(world.serve_of_refused host config arrival action accepted refused).1]
      simp
  | admitted admitted =>
      rw [world.serve_of_admitted host config arrival admitted]
      exact World.run_bind_respond_ne (Program.Performs.bind (answerAnnounce_observes ..)
        fun _ => Program.Performs.done _) _ _
  | scraped action accepted =>
      rw [world.serve_of_scrape host config arrival accepted.1 action]
      exact World.run_bind_respond_ne (btHandleScrape_observes ..) _ _

/-- Errors are explained unless the datagram itself carries the error action
while Redis works. -/
theorem errorsExplained_iff :
    ErrorsExplained host config world arrival ↔
      ¬(world.RedisWorks arrival ∧ (arrival.request host).action = BtAction.error.toWord) := by
  rw [← BtAction.ofWord?_eq_some, ← Datagram.action]
  constructor
  · rintro explained ⟨works, action⟩
    have linked := (world.linked_iff config arrival).mpr works
    have crash := world.serve_of_error host config arrival linked action
    exact explained.message (by rw [crash])
  · intro harmless
    refine ⟨?_, ?_⟩
    · by_cases action : arrival.action host = some .error
      · have unlinked : (world.acquired config arrival).1 = none := by
          by_contra linked
          have works := (world.linked_iff config arrival).mp (Option.isSome_iff_ne_none.mpr linked)
          exact harmless ⟨works, action⟩
        rw [(world.serve_of_unlinked host config arrival unlinked).1]
        simp
      · exact serve_ne_nullMessage host config world arrival action
    · intro works strange
      have linked := (world.linked_iff config arrival).mpr works
      have notError : arrival.action host ≠ some .error := fun action => harmless ⟨works, action⟩
      have unknown : arrival.action host = none := by
        cases action : arrival.action host with
        | none => rfl
        | some kind =>
            cases kind with
            | error => exact absurd action notError
            | _ => simp [action] at strange
      apply world.serve_of_rejected host config arrival linked _ notError
      rw [World.validated, btValidRequest, ← Datagram.action, unknown]
      rfl

/-- Sixteen bytes with the error action crash the worker. -/
theorem not_errorsExplained : ¬ErrorsExplained .little .shipped .start
    (.calm ⟨1, 1⟩ (BtReq.datagram ⟨0, 3, 0⟩)) := by
  intro explained
  have crash : (World.start.serve .little .shipped
      (.calm ⟨1, 1⟩ (BtReq.datagram ⟨0, 3, 0⟩))).1 = .error .nullMessage := by
    decide +kernel
  exact explained.message crash

/-! ## Responses with a message -/

/-- The response consists of the fields of an error and of nothing else. -/
structure SendsExactError (host : Host) (request : BtReq) (msg : Bytes) (data : Block) : Prop where
  sent : btSendError host request (some msg) = .done data
  bytes : data = .ofBytes (ByteOrder.big.store BtAction.error.toWord ++
    ByteOrder.big.store request.transactionId ++ msg ++ [0])
  length : data.length = 8 + msg.length + 1
  written : none ∉ data

/-- The length of the response counts sixty-four bytes for its two words, so bytes
nobody wrote are always sent along. -/
theorem not_sendsExactError (host : Host) (request : BtReq) (msg : Bytes) (data : Block) :
    ¬SendsExactError host request msg data := by
  intro exact
  have sent := exact.sent
  rw [btSendError_eq] at sent
  cases sent
  have length := exact.length
  simp only [errorBlock, List.length_append, Block.length_ofBytes, Block.length_malloc,
    ByteOrder.length_store, List.length_singleton] at length
  omega

/-- The refusal of an info hash ends with such bytes. -/
theorem not_sendsExactError_refusal : ¬∃ data, SendsExactError .little ⟨0, 1, 9⟩
    (ascii "Blacklisted info hash") data := by
  rintro ⟨data, exact⟩
  have sent := exact.sent
  rw [btSendError_eq] at sent
  cases sent
  exact exact.written (by decide)

end BtTracker
