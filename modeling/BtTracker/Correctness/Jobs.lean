import BtTracker.Correctness.Calls
import BtTracker.Correctness.Wire
import BtTracker.Semantics.Contexts

/-!
# Invariants of a thread's connections

A job opens a context if it needs one, sends commands over the context in the
slot, and sends a response.  What these three keep is kept by every job, also by
one that crashes, and so by all jobs of a thread.
-/

namespace BtTracker

open BtTracker.Foundation
open BtTracker.Foundation.Program (Ensures Performs Runs)

namespace Ledger

/-- An invariant of the connections, in an environment that may do less than
`Tracks` allows. -/
structure Stable (environment : Environment Op Op.Answer Ledger) (config : BtConfig)
    (invariant : Ledger → Prop) : Prop where
  tracks : ∀ {ledger op answer after}, environment ledger op answer after →
    ledger.Tracks op answer after
  opens : ∀ {before}, invariant before →
    Ensures environment (fun outcome ready => invariant ready ∧ outcome = .ok ready.slot)
      (openRedis config) before
  commands : ∀ {ledger after redis request reply}, invariant ledger →
    ledger.slot = some redis → (∀ database, request ≠ .select database) →
    environment ledger (.redisCommand redis request) reply after →
      invariant after ∧ after.slot = some redis
  sends : ∀ {ledger} data, invariant ledger →
    invariant { ledger with sent := ledger.sent ++ [data] }

/-- Without a context, no handler is entered. -/
theorem answerWith_none (host : Host) (config : BtConfig) (params : BtJobParams) :
    answerWith host config params none =
      respond params (some (errorBlock host (btReadRequestData host params.buff).transactionId
        storageUnavailable)) := by
  rw [answerWith, dispatch, BtAction.ofWord?_toWord]
  dsimp only
  rw [btSendError_eq]
  rfl

namespace Stable

variable {environment : Environment Op Op.Answer Ledger} {host : Host} {config : BtConfig}
  {invariant : Ledger → Prop} (stable : Stable environment config invariant) {before : Ledger}
  (holds : invariant before) (params : BtJobParams)

include stable holds

/-- A job enters its dispatch with the context in the slot, or with none. -/
theorem acquireRedis_ensures :
    Ensures environment (fun outcome ready => invariant ready ∧ outcome = .ok ready.slot)
      (acquireRedis config) before := by
  intro redis ready got
  obtain ⟨kept, rfl⟩ := stable.tracks got
  cases redis with
  | none => exact stable.opens holds
  | some redis =>
      have stays (database : Nat) : Redis.Command.ping ≠ .select database := nofun
      intro reply pinged answered
      obtain ⟨holds, held⟩ := stable.commands holds kept.symm stays answered
      cases reply with
      | none => exact stable.opens holds
      | some reply =>
          change Ensures environment _
            (if !reply.isError then .done (some redis) else openRedis config) pinged
          split
          · exact ⟨holds, congrArg _ held.symm⟩
          · exact stable.opens holds

theorem respond_ensures (response : Option Block) :
    Ensures environment (fun _ last => invariant last) (respond params response) before := by
  cases response with
  | none => exact holds
  | some data =>
      intro _ last sent
      cases stable.tracks sent
      exact stable.sends data holds

/-- A handler leaves the context where it is. -/
theorem dispatch_ensures {redis : Context} (held : before.slot = some redis) (request : BtReq)
    (error : Option Bytes) :
    Ensures environment (fun _ last => invariant last)
      (dispatch host config params request error (some redis)) before := by
  have step (ledger : Ledger) (op : Op) (answer : op.Answer) (last : Ledger)
      (allowed : op.Handles redis Redis.Command.Accesses)
      (kept : invariant ledger ∧ ledger.slot = some redis)
      (answered : environment ledger op answer last) :
      invariant last ∧ last.slot = some redis := by
    cases op with
    | redisCommand context request =>
        obtain ⟨rfl, accesses⟩ := allowed
        refine stable.commands kept.1 kept.2 ?_ answered
        rintro database rfl
        exact accesses
    | rand | malloc | loadSockaddr address =>
        cases stable.tracks answered
        exact kept
    | _ => exact allowed.elim
  have handles := dispatch_handles host config redis params request error
  exact (Performs.ensures handles step ⟨holds, held⟩).mono fun _ _ kept => kept.1.1

theorem answerWith_ensures :
    Ensures environment (fun _ last => invariant last)
      (answerWith host config params before.slot) before := by
  cases held : before.slot with
  | none =>
      rw [answerWith_none]
      exact stable.respond_ensures holds params _
  | some redis =>
      refine .bind (stable.dispatch_ensures holds params held _ _) ?_ ?_
      · exact fun response last kept => stable.respond_ensures kept params response
      · exact fun reason last kept => kept

/-- One job. -/
theorem btRequestProcessor_ensures :
    Ensures environment (fun _ after => invariant after)
      (btRequestProcessor host config params) before := by
  rw [btRequestProcessor_eq]
  refine .bind (stable.acquireRedis_ensures holds) ?_ ?_
  · intro redis ready acquired
    cases acquired.2
    exact stable.answerWith_ensures acquired.1 params
  · intro reason ready acquired
    cases acquired.2

omit holds in
/-- All jobs of a thread. -/
theorem betweenJobs (initial : invariant .initial)
    (idle : BetweenJobs environment host config before) : invariant before := by
  induction idle with
  | start => exact initial
  | job idle params ran ih => exact (stable.btRequestProcessor_ensures ih params).runs ran

end Stable

end Ledger

end BtTracker
