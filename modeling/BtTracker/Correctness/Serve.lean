import BtTracker.Correctness.Observers
import BtTracker.Correctness.Request
import BtTracker.Correctness.Wire

/-!
# Serving one datagram

The processing of a datagram goes through stages: a connection to Redis is
acquired, the request is validated, an announce is checked against the
restriction and only then is the peer list updated.  This module names the
outcome of each stage and shows what the whole run does to the database in
terms of them.
-/

namespace BtTracker

open BtTracker.Foundation

variable (host : Host) (config : BtConfig) (world : World) (arrival : Arrival)

/-! ## Stages -/

namespace World

/-- The context the job ends up with, and the world at that point. -/
def acquired : Option Context × World :=
  match (world.receive arrival).run (acquireRedis config) with
  | (.ok redis, after) => (redis, after)
  | (.error _, after) => (none, after)

/-- The validation of the request. -/
def validated : Except Fault Bool × World :=
  (world.acquired config arrival).2.run
    (btValidRequest host (world.acquired config arrival).1 config (arrival.request host)
      arrival.params.buflen)

/-- The check of an announce against the restriction. -/
def screened : Except Fault Bool × World :=
  (world.validated host config arrival).2.run
    (btInfoHashBlacklisted (world.acquired config arrival).1 config
      (infoHashText (arrival.announce host).infoHash))

/-- The identifier drawn for an accepted connection request. -/
def issued : BitVec 64 × World :=
  match (world.validated host config arrival).2.run (btRandomInt64 host) with
  | (.ok connectionId, after) => (connectionId, after)
  | (.error _, after) => (0, after)

/-- The update of the peer list by an announce. -/
def updated : Except Fault Unit × World :=
  (world.screened host config arrival).2.run
    (btUpdatePeerList host (world.acquired config arrival).1 config (arrival.announce host)
      arrival.params.fromAddr (infoHashText (arrival.announce host).infoHash)
      (arrival.isSeeder host))

/-- The environment lets the job have a connection to Redis: the context of its
thread answers the ping, or a new context can be opened. -/
def RedisWorks : Prop :=
  let opens (position : Nat) : Prop :=
    ∃ redis, (arrival.choices position).connect world.nextContext = .opened redis
  match world.slot with
  | none => opens 1
  | some _ => (arrival.choices 1).delivery = .normal ∨ opens 2

/-- The job has a working connection to Redis. -/
def Linked : Prop := (world.acquired config arrival).1.isSome = true

/-- The request passes `bt_valid_request`. -/
def Accepted : Prop :=
  world.Linked config arrival ∧ (world.validated host config arrival).1 = .ok true

/-- The datagram is an announce that is accepted and whose info hash is not
refused by the restriction. -/
structure Admitted : Prop where
  action : arrival.action host = some .announce
  accepted : world.Accepted host config arrival
  permitted : (world.screened host config arrival).1 = .ok false

/-- The datagram is an accepted connection request. -/
structure Connected : Prop where
  action : arrival.action host = some .connect
  accepted : world.Accepted host config arrival

instance : Decidable (world.Linked config arrival) := inferInstanceAs (Decidable (_ = true))

instance : Decidable (world.Accepted host config arrival) := inferInstanceAs (Decidable (_ ∧ _))

instance : Decidable (world.Admitted host config arrival) :=
  decidable_of_iff (arrival.action host = some .announce ∧ world.Accepted host config arrival ∧
      (world.screened host config arrival).1 = .ok false)
    ⟨fun ⟨action, accepted, permitted⟩ => ⟨action, accepted, permitted⟩,
      fun admitted => ⟨admitted.action, admitted.accepted, admitted.permitted⟩⟩

instance : Decidable (world.Connected host config arrival) :=
  decidable_of_iff (arrival.action host = some .connect ∧ world.Accepted host config arrival)
    ⟨fun ⟨action, accepted⟩ => ⟨action, accepted⟩,
      fun connected => ⟨connected.action, connected.accepted⟩⟩

end World

/-! ## What each stage keeps -/

namespace World

theorem run_acquireRedis :
    (world.receive arrival).run (acquireRedis config) =
      (.ok (world.acquired config arrival).1, (world.acquired config arrival).2) := by
  obtain ⟨redis, ok⟩ := Program.FaultFree.run_ok exec (acquireRedis_faultFree config)
    (world.receive arrival)
  cases result : (world.receive arrival).run (acquireRedis config) with
  | mk outcome after =>
      have outcomeEq : outcome = .ok redis := (congrArg Prod.fst result).symm.trans ok
      simp only [acquired, result, outcomeEq]

theorem acquired_eq :
    (world.acquired config arrival).2 =
      ((world.receive arrival).run (acquireRedis config)).2 := by
  rw [run_acquireRedis]

private theorem run_openRedis (ready : World) :
    (∃ redis after, ready.run (openRedis config) = (.ok (some redis), after)) ↔
      ∃ redis, (ready.choices 0).connect ready.nextContext = .opened redis := by
  cases answer : (ready.choices 0).connect ready.nextContext <;>
    simp [openRedis, btRedisConnect, exec, answer]

/-- Whether there is a connection is decided by the ping and the attempt to
connect. -/
theorem linked_iff : world.Linked config arrival ↔ world.RedisWorks arrival := by
  have acquires : world.Linked config arrival ↔
      ∃ redis after, (world.receive arrival).run (acquireRedis config) =
        (.ok (some redis), after) := by
    rw [run_acquireRedis, Linked, Option.isSome_iff_exists]
    simp
  rw [acquires, acquireRedis, RedisWorks]
  cases slot : world.slot with
  | none =>
      have get : (world.receive arrival).run (perform Op.privateGet) =
          (.ok none, (world.receive arrival).tick) := by
        rw [← slot]
        rfl
      rw [run_bind_of_ok get]
      exact run_openRedis config _
  | some redis =>
      have get : (world.receive arrival).run (perform Op.privateGet) =
          (.ok (some redis), (world.receive arrival).tick) := by
        rw [← slot]
        rfl
      rw [run_bind_of_ok get]
      have reopen := run_openRedis config
      cases delivery : (arrival.choices 1).delivery <;>
        simp [btRedisPing, exec, command, receive, tick, delivery, Redis.Store.deliver,
          Redis.Store.exec, Redis.Reply.isError, reopen]

@[simp] theorem acquired_store : (world.acquired config arrival).2.store = world.store := by
  rw [acquired_eq]
  exact (run_of_observes (acquireRedis_observes config) _).1

@[simp] theorem acquired_sent : (world.acquired config arrival).2.sent = [] := by
  rw [acquired_eq]
  exact (run_of_observes (acquireRedis_observes config) _).2

@[simp] theorem acquired_siOther :
    (world.acquired config arrival).2.siOther = arrival.sender := by
  rw [acquired_eq, siOther_run]
  rfl

/-- The choices left after the screening are among those of the arrival. -/
theorem choices_screened (good : Choice → Prop)
    (all : ∀ position, good (arrival.choices position)) :
    ∀ position, good ((world.screened host config arrival).2.choices position) := by
  have received : ∀ position, good ((world.receive arrival).choices position) := all
  have acquired : ∀ position, good ((world.acquired config arrival).2.choices position) := by
    rw [acquired_eq]
    exact choices_run good received _
  exact choices_run good (choices_run good acquired _) _

/-- The choices left after the update are among those of the arrival. -/
theorem choices_updated (good : Choice → Prop)
    (all : ∀ position, good (arrival.choices position)) :
    ∀ position, good ((world.updated host config arrival).2.choices position) :=
  choices_run good (choices_screened host config world arrival good all) _

theorem acquired_normal (normal : arrival.Normal) :
    (world.acquired config arrival).2.Normal := by
  have received : (world.receive arrival).Normal := normal
  rw [acquired_eq]
  exact received.run _

@[simp] theorem validated_store :
    (world.validated host config arrival).2.store = world.store := by
  rw [validated, (run_of_observes (btValidRequest_observes ..) _).1, acquired_store]

@[simp] theorem validated_sent : (world.validated host config arrival).2.sent = [] := by
  rw [validated, (run_of_observes (btValidRequest_observes ..) _).2, acquired_sent]

@[simp] theorem validated_siOther :
    (world.validated host config arrival).2.siOther = arrival.sender := by
  rw [validated, siOther_run, acquired_siOther]

theorem validated_normal (normal : arrival.Normal) :
    (world.validated host config arrival).2.Normal :=
  Normal.run (acquired_normal config world arrival normal) _

@[simp] theorem screened_store :
    (world.screened host config arrival).2.store = world.store := by
  rw [screened, (run_of_observes (btInfoHashBlacklisted_observes ..) _).1, validated_store]

@[simp] theorem screened_sent : (world.screened host config arrival).2.sent = [] := by
  rw [screened, (run_of_observes (btInfoHashBlacklisted_observes ..) _).2, validated_sent]

@[simp] theorem screened_siOther :
    (world.screened host config arrival).2.siOther = arrival.sender := by
  rw [screened, siOther_run, validated_siOther]

theorem screened_normal (normal : arrival.Normal) :
    (world.screened host config arrival).2.Normal :=
  Normal.run (validated_normal host config world arrival normal) _

@[simp] theorem updated_siOther :
    (world.updated host config arrival).2.siOther = arrival.sender := by
  rw [updated, siOther_run, screened_siOther]

theorem updated_normal (normal : arrival.Normal) :
    (world.updated host config arrival).2.Normal :=
  choices_updated host config world arrival (fun choice => choice.delivery = .normal) normal

/-! ## The whole run -/

/-- Sending the response is all that happens after the handler. -/
theorem run_respond (params : BtJobParams) (response : Option Block) (world : World) :
    (world.run (respond params response)).1 = .ok () ∧
      (world.run (respond params response)).2.store = world.store ∧
      (world.run (respond params response)).2.sent =
        world.sent ++ (response.map fun data => (world.siOther, data)).toList := by
  cases response with
  | none => simp [respond]
  | some data =>
      have pointer : world.sockaddr params.fromAddr = world.siOther := by
        cases params.fromAddr
        rfl
      refine ⟨rfl, rfl, ?_⟩
      rw [← pointer]
      rfl

/-- A handler that returned a response: the run succeeds and sends it. -/
theorem run_bind_respond (params : BtJobParams) {handler : Worker (Option Block)}
    {world after : World} {response : Option Block}
    (handled : world.run handler = (.ok response, after)) :
    (world.run (handler >>= respond params)).1 = .ok () ∧
      (world.run (handler >>= respond params)).2.store = after.store ∧
      (world.run (handler >>= respond params)).2.sent =
        after.sent ++ (response.map fun data => (after.siOther, data)).toList := by
  rw [run_bind_of_ok handled]
  exact run_respond params response after

theorem store_run_bind_respond (params : BtJobParams) (handler : Worker (Option Block))
    (world : World) :
    (world.run (handler >>= respond params)).2.store = (world.run handler).2.store := by
  cases result : world.run handler with
  | mk outcome after =>
      cases outcome with
      | ok response => exact (run_bind_respond params result).2.1
      | error reason => rw [run_bind_of_error result]

/-- All that is sent is the block an answer returns. -/
theorem run_answer_respond {program : Worker Block} (observes : program.Observes)
    (params : BtJobParams) (world : World) :
    (world.run ((some <$> program) >>= respond params)).2.sent =
      world.sent ++ match (world.run program).1 with
        | .ok data => [(world.siOther, data)]
        | .error _ => [] := by
  have unsent := (run_of_observes observes world).2
  have sender := siOther_run program world
  cases result : world.run program with
  | mk outcome after =>
      rw [result] at unsent sender
      cases outcome with
      | ok data =>
          have handled : world.run (some <$> program) = (.ok (some data), after) := by
            rw [Program.map_eq_bind, run_bind_of_ok result, run_done]
          rw [(run_bind_respond params handled).2.2, unsent, sender]
          rfl
      | error reason =>
          have failed : world.run (some <$> program) = (.error reason, after) := by
            rw [Program.map_eq_bind, run_bind_of_error result]
          rw [run_bind_of_error failed, unsent, List.append_nil]

/-- Only a missing error message can make `strlen` crash. -/
theorem run_bind_respond_ne {handler : Worker (Option Block)} (observes : handler.Observes)
    (params : BtJobParams) (world : World) :
    (world.run (handler >>= respond params)).1 ≠ .error .nullMessage := by
  cases result : world.run handler with
  | mk outcome after =>
      cases outcome with
      | ok response =>
          rw [(run_bind_respond params result).1]
          simp
      | error reason =>
          have failed : (world.run handler).1 = .error reason := by rw [result]
          have tolerated : reason ≠ .nullMessage := observes.run_tolerated exec failed
          rw [run_bind_of_error result]
          simpa using tolerated

/-- Without a connection, there is an error to send. -/
theorem serve_eq_of_unlinked (unlinked : (world.acquired config arrival).1 = none) :
    world.serve host config arrival =
      (world.acquired config arrival).2.run
        (.done (some (errorBlock host (arrival.request host).transactionId storageUnavailable)) >>=
          respond arrival.params) := by
  rw [serve, btRequestProcessor, run_bind_of_ok (run_acquireRedis config world arrival), unlinked]
  simp only [dispatch, BtAction.ofWord?_toWord, btSendError_eq, Program.map_eq_bind,
    Program.done_bind, Datagram.request]

/-- Without a connection, the request is answered with an error. -/
theorem serve_of_unlinked (unlinked : (world.acquired config arrival).1 = none) :
    (world.serve host config arrival).1 = .ok () ∧
      (world.serve host config arrival).2.store = world.store ∧
      (world.serve host config arrival).2.sent = [(arrival.sender,
        errorBlock host (arrival.request host).transactionId storageUnavailable)] := by
  rw [serve_eq_of_unlinked host config world arrival unlinked]
  simpa using run_respond arrival.params (some (errorBlock host
    (arrival.request host).transactionId storageUnavailable)) (world.acquired config arrival).2

/-- With a connection, the datagram goes to the handler of its action. -/
theorem serve_of_linked {redis : Context}
    (linked : (world.acquired config arrival).1 = some redis) :
    world.serve host config arrival =
      (world.acquired config arrival).2.run
        (dispatch host config arrival.params (arrival.request host) none (some redis) >>=
          respond arrival.params) := by
  rw [serve, btRequestProcessor, run_bind_of_ok (run_acquireRedis config world arrival), linked]
  rfl

/-! ## The guard of a handler -/

theorem validated_ok (linked : world.Linked config arrival) :
    ∃ valid, (world.validated host config arrival).1 = .ok valid := by
  obtain ⟨redis, context⟩ := Option.isSome_iff_exists.mp linked
  rw [validated, context]
  exact Program.FaultFree.run_ok exec (btValidRequest_faultFree ..) _

/-- Every handler validates the request first and ignores it if that fails. -/
theorem run_guarded {valid : Bool}
    (checked : (world.validated host config arrival).1 = .ok valid)
    (handler : Worker (Option Block)) :
    (world.acquired config arrival).2.run (do
        if !(← btValidRequest host (world.acquired config arrival).1 config
          (arrival.request host) arrival.params.buflen) then pure none else handler) =
      if valid then (world.validated host config arrival).2.run handler
      else (.ok none, (world.validated host config arrival).2) := by
  have first : (world.acquired config arrival).2.run
      (btValidRequest host (world.acquired config arrival).1 config (arrival.request host)
        arrival.params.buflen) = (.ok valid, (world.validated host config arrival).2) :=
    Prod.ext checked rfl
  rw [run_bind_of_ok first]
  cases valid <;> rfl

/-! ## Datagrams without effect -/

/-- The handlers of a request that `bt_valid_request` rejects return nothing. -/
theorem run_dispatch_of_rejected {redis : Context}
    (context : (world.acquired config arrival).1 = some redis)
    (rejected : (world.validated host config arrival).1 = .ok false)
    (harmless : arrival.action host ≠ some .error) :
    (world.acquired config arrival).2.run
        (dispatch host config arrival.params (arrival.request host) none (some redis)) =
      (.ok none, if arrival.action host = none then (world.acquired config arrival).2
        else (world.validated host config arrival).2) := by
  have guarded := run_guarded host config world arrival rejected
  rw [context] at guarded
  rw [dispatch, ← Datagram.action]
  cases action : arrival.action host with
  | none => rfl
  | some kind =>
      rw [if_neg (by simp)]
      cases kind with
      | connect | announce | scrape => exact guarded _
      | error => exact absurd action harmless

/-- A request that `bt_valid_request` rejects is dropped without a word. -/
theorem serve_of_rejected (linked : world.Linked config arrival)
    (rejected : (world.validated host config arrival).1 = .ok false)
    (harmless : arrival.action host ≠ some .error) :
    (world.serve host config arrival).1 = .ok () ∧
      (world.serve host config arrival).2.store = world.store ∧
      (world.serve host config arrival).2.sent = [] := by
  obtain ⟨redis, context⟩ := Option.isSome_iff_exists.mp linked
  have outcome := run_bind_respond arrival.params
    (run_dispatch_of_rejected host config world arrival context rejected harmless)
  rw [serve_of_linked host config world arrival context]
  split at outcome
  · simpa using outcome
  · simpa using outcome

/-- With a working connection, nobody sets the message of a request that asks
for an error. -/
theorem serve_of_error (linked : world.Linked config arrival)
    (action : arrival.action host = some .error) :
    world.serve host config arrival =
      (.error .nullMessage, (world.acquired config arrival).2) := by
  obtain ⟨redis, context⟩ := Option.isSome_iff_exists.mp linked
  rw [serve_of_linked host config world arrival context]
  apply run_bind_of_error
  rw [dispatch, ← Datagram.action, action]
  rfl

theorem serve_of_scrape (linked : world.Linked config arrival)
    (action : arrival.action host = some .scrape) :
    world.serve host config arrival =
      (world.acquired config arrival).2.run
        (btHandleScrape host (arrival.request host) config arrival.params.buff
          arrival.params.buflen (world.acquired config arrival).1 >>=
            respond arrival.params) := by
  obtain ⟨redis, context⟩ := Option.isSome_iff_exists.mp linked
  rw [serve_of_linked host config world arrival context, dispatch, ← Datagram.action, action,
    context]

/-- An accepted scrape is decoded and answered. -/
theorem serve_of_scraped (action : arrival.action host = some .scrape)
    (accepted : world.Accepted host config arrival) :
    world.serve host config arrival =
      (world.validated host config arrival).2.run
        ((some <$> (Program.ofOption Fault.overrun (btReadScrapeRequestData host
            arrival.params.buff arrival.params.buflen) >>= fun scrapeRequest =>
          answerScrape host (arrival.request host) config scrapeRequest
            (world.acquired config arrival).1)) >>= respond arrival.params) := by
  have guarded := run_guarded host config world arrival accepted.2
  rw [serve_of_scrape host config world arrival accepted.1 action]
  apply run_bind_congr
  rw [Program.map_eq_bind, Program.bind_assoc]
  exact guarded _

/-- Statistics never change the database. -/
theorem store_serve_of_scrape (linked : world.Linked config arrival)
    (action : arrival.action host = some .scrape) :
    (world.serve host config arrival).2.store = world.store := by
  rw [serve_of_scrape host config world arrival linked action, store_run_bind_respond,
    (run_of_observes (btHandleScrape_observes ..) _).1, acquired_store]

/-! ## Connection requests -/

theorem randomBytes_faultFree (count : Nat) : (randomBytes count).FaultFree := by
  induction count with
  | zero => trivial
  | succ count ih =>
      exact Program.FaultFree.bind (Program.FaultFree.perform _) fun _ =>
        Program.FaultFree.bind ih fun _ => Program.FaultFree.done _

theorem run_btRandomInt64 :
    (world.validated host config arrival).2.run (btRandomInt64 host) =
      (.ok (world.issued host config arrival).1, (world.issued host config arrival).2) := by
  obtain ⟨connectionId, ok⟩ := Program.FaultFree.run_ok exec
    (Program.FaultFree.bind (randomBytes_faultFree 8) fun bytes =>
      Program.FaultFree.done (host.order.load 64 bytes)) (world.validated host config arrival).2
  cases result : (world.validated host config arrival).2.run (btRandomInt64 host) with
  | mk outcome after =>
      have outcomeEq : outcome = .ok connectionId := (congrArg Prod.fst result).symm.trans ok
      simp only [issued, result, outcomeEq]

theorem issued_eq :
    (world.issued host config arrival).2 =
      ((world.validated host config arrival).2.run (btRandomInt64 host)).2 := by
  rw [run_btRandomInt64]

@[simp] theorem issued_store : (world.issued host config arrival).2.store = world.store := by
  rw [issued_eq, (run_of_observes (btRandomInt64_observes host) _).1, validated_store]

@[simp] theorem issued_sent : (world.issued host config arrival).2.sent = [] := by
  rw [issued_eq, (run_of_observes (btRandomInt64_observes host) _).2, validated_sent]

@[simp] theorem issued_siOther :
    (world.issued host config arrival).2.siOther = arrival.sender := by
  rw [issued_eq, siOther_run, validated_siOther]

/-- The command that records the new identifier. -/
def issueCommand : Redis.Command :=
  .setex (connectionKey host config (world.issued host config arrival).1)
    btActiveConnectionTtl (ascii "1")

/-- The response that carries the new identifier. -/
def issueResponse : BtConnectionResp where
  action := (arrival.request host).action
  transactionId := (arrival.request host).transactionId
  connectionId := (world.issued host config arrival).1

/-- The handler of an accepted connection request. -/
theorem run_dispatch_of_connected (connected : world.Connected host config arrival) {redis : Context}
    (context : (world.acquired config arrival).1 = some redis) :
    (world.acquired config arrival).2.run
        (dispatch host config arrival.params (arrival.request host) none (some redis)) =
      (.ok (some (connectionBlock host (world.issueResponse host config arrival))),
        ((world.issued host config arrival).2.command
          (world.issueCommand host config arrival)).2) := by
  have guarded := run_guarded host config world arrival connected.accepted.2
  rw [context] at guarded
  rw [dispatch, ← Datagram.action, connected.action]
  refine (guarded _).trans ?_
  rw [if_pos rfl, run_bind_of_ok (run_btRandomInt64 host config world arrival)]
  simp only [btSerializeConnectionResponse_eq]
  rfl

/-- An accepted connection request gets a fresh identifier, which is recorded. -/
theorem serve_of_connected (connected : world.Connected host config arrival) :
    (world.serve host config arrival).1 = .ok () ∧
      (world.serve host config arrival).2.store =
        ((world.issued host config arrival).2.command
          (world.issueCommand host config arrival)).2.store ∧
      (world.serve host config arrival).2.sent = [(arrival.sender,
        connectionBlock host (world.issueResponse host config arrival))] := by
  obtain ⟨redis, context⟩ := Option.isSome_iff_exists.mp connected.accepted.1
  have outcome := run_bind_respond arrival.params
    (run_dispatch_of_connected host config world arrival connected context)
  rw [serve_of_linked host config world arrival context]
  simpa [command, tick] using outcome

/-! ## Announces -/

theorem screened_ok (linked : world.Linked config arrival) :
    ∃ refused, (world.screened host config arrival).1 = .ok refused := by
  obtain ⟨redis, context⟩ := Option.isSome_iff_exists.mp linked
  rw [screened, context]
  exact Program.FaultFree.run_ok exec (btInfoHashBlacklisted_faultFree ..) _

/-- The part of `bt_handle_announce` behind the validation. -/
theorem dispatch_announce (action : arrival.action host = some .announce)
    (accepted : world.Accepted host config arrival) {refused : Bool}
    (screened : (world.screened host config arrival).1 = .ok refused) :
    (world.acquired config arrival).2.run
        (dispatch host config arrival.params (arrival.request host) none
          (world.acquired config arrival).1) =
      (world.screened host config arrival).2.run
        (if refused then
          some <$> btSendError host (arrival.request host)
            (some (ascii "Blacklisted info hash"))
        else do
          btUpdatePeerList host (world.acquired config arrival).1 config
            (arrival.announce host) arrival.params.fromAddr
            (infoHashText (arrival.announce host).infoHash) (arrival.isSeeder host)
          some <$> answerAnnounce host (arrival.request host) config (arrival.announce host)
            (infoHashText (arrival.announce host).infoHash) (arrival.isSeeder host)
            (world.acquired config arrival).1) := by
  have check : (world.validated host config arrival).2.run
      (btInfoHashBlacklisted (world.acquired config arrival).1 config
        (infoHashText (arrival.announce host).infoHash)) =
      (.ok refused, (world.screened host config arrival).2) := Prod.ext screened rfl
  rw [dispatch, ← Datagram.action, action]
  refine (run_guarded host config world arrival accepted.2 _).trans ?_
  rw [if_pos rfl]
  exact run_bind_of_ok check

/-- The handler of an announce for a refused info hash. -/
theorem run_dispatch_of_refused (action : arrival.action host = some .announce)
    (accepted : world.Accepted host config arrival)
    (refused : (world.screened host config arrival).1 = .ok true) {redis : Context}
    (context : (world.acquired config arrival).1 = some redis) :
    (world.acquired config arrival).2.run
        (dispatch host config arrival.params (arrival.request host) none (some redis)) =
      (.ok (some (errorBlock host (arrival.request host).transactionId
        (ascii "Blacklisted info hash"))), (world.screened host config arrival).2) := by
  have dispatched := dispatch_announce host config world arrival action accepted refused
  rw [if_pos rfl, btSendError_eq, context] at dispatched
  exact dispatched

/-- An announce for a refused info hash is answered with an error. -/
theorem serve_of_refused (action : arrival.action host = some .announce)
    (accepted : world.Accepted host config arrival)
    (refused : (world.screened host config arrival).1 = .ok true) :
    (world.serve host config arrival).1 = .ok () ∧
      (world.serve host config arrival).2.store = world.store ∧
      (world.serve host config arrival).2.sent = [(arrival.sender,
        errorBlock host (arrival.request host).transactionId
          (ascii "Blacklisted info hash"))] := by
  obtain ⟨redis, context⟩ := Option.isSome_iff_exists.mp accepted.1
  rw [serve_of_linked host config world arrival context]
  simpa using run_bind_respond arrival.params
    (run_dispatch_of_refused host config world arrival action accepted refused context)

theorem btUpdatePeerList_faultFree (redis : Context) (request : BtAnnounceReq)
    (clientAddr : SockaddrPtr) (infoHashStr : Bytes) (isSeeder : Bool) :
    (btUpdatePeerList host (some redis) config request clientAddr infoHashStr
      isSeeder).FaultFree := by
  rw [btUpdatePeerList]
  split
  · exact fun _ => trivial
  · intro reply
    cases reply with
    | none => trivial
    | some reply =>
        cases reply <;> first | trivial | exact fun _ => trivial
  · exact fun _ _ _ => trivial
  · exact fun _ _ _ => trivial
  · trivial

theorem updated_ok (linked : world.Linked config arrival) :
    (world.updated host config arrival).1 = .ok () := by
  obtain ⟨redis, context⟩ := Option.isSome_iff_exists.mp linked
  rw [updated, context]
  exact (Program.FaultFree.run_ok exec (btUpdatePeerList_faultFree ..) _).choose_spec

/-- An admitted announce updates the peer list and is then answered from the
updated database. -/
theorem serve_of_admitted (admitted : world.Admitted host config arrival) :
    world.serve host config arrival =
      (world.updated host config arrival).2.run
        ((some <$> answerAnnounce host (arrival.request host) config (arrival.announce host)
            (infoHashText (arrival.announce host).infoHash) (arrival.isSeeder host)
            (world.acquired config arrival).1) >>= respond arrival.params) := by
  obtain ⟨redis, context⟩ := Option.isSome_iff_exists.mp admitted.accepted.1
  have update : (world.screened host config arrival).2.run
      (btUpdatePeerList host (world.acquired config arrival).1 config
        (arrival.announce host) arrival.params.fromAddr
        (infoHashText (arrival.announce host).infoHash) (arrival.isSeeder host)) =
      (.ok (), (world.updated host config arrival).2) :=
    Prod.ext (updated_ok host config world arrival admitted.accepted.1) rfl
  have dispatched := dispatch_announce host config world arrival admitted.action
    admitted.accepted admitted.permitted
  rw [if_neg (by decide), run_bind_of_ok update, context] at dispatched
  rw [serve_of_linked host config world arrival context, run_bind_congr dispatched, context]

theorem store_serve_of_admitted (admitted : world.Admitted host config arrival) :
    (world.serve host config arrival).2.store =
      (world.updated host config arrival).2.store := by
  have observes : (some <$> answerAnnounce host (arrival.request host) config
      (arrival.announce host) (infoHashText (arrival.announce host).infoHash)
      (arrival.isSeeder host) (world.acquired config arrival).1).Observes :=
    Program.Performs.bind (answerAnnounce_observes ..) fun _ => Program.Performs.done _
  rw [serve_of_admitted host config world arrival admitted, store_run_bind_respond,
    (run_of_observes observes _).1]

/-! ## The way of a datagram -/

/-- Where a datagram ends up. -/
inductive Route : Prop where
  | unlinked (context : (world.acquired config arrival).1 = none)
  | unexplained (linked : world.Linked config arrival)
      (action : arrival.action host = some .error)
  | rejected (linked : world.Linked config arrival)
      (rejected : (world.validated host config arrival).1 = .ok false)
      (harmless : arrival.action host ≠ some .error)
  | connected (connected : world.Connected host config arrival)
  | refused (action : arrival.action host = some .announce)
      (accepted : world.Accepted host config arrival)
      (refused : (world.screened host config arrival).1 = .ok true)
  | admitted (admitted : world.Admitted host config arrival)
  | scraped (action : arrival.action host = some .scrape)
      (accepted : world.Accepted host config arrival)

/-- There is no other way. -/
theorem route : world.Route host config arrival := by
  by_cases linked : world.Linked config arrival
  · obtain ⟨valid, checked⟩ := validated_ok host config world arrival linked
    cases action : arrival.action host with
    | none =>
        have rejected : (world.validated host config arrival).1 = .ok false := by
          rw [validated, btValidRequest, ← Datagram.action, action]
          rfl
        exact .rejected linked rejected (by simp [action])
    | some kind =>
        cases valid with
        | false =>
            by_cases error : arrival.action host = some .error
            · exact .unexplained linked error
            · exact .rejected linked checked error
        | true =>
            have accepted : world.Accepted host config arrival := ⟨linked, checked⟩
            cases kind with
            | connect => exact .connected ⟨action, accepted⟩
            | announce =>
                obtain ⟨refused, screened⟩ := screened_ok host config world arrival linked
                cases refused with
                | true => exact .refused action accepted screened
                | false => exact .admitted ⟨action, accepted, screened⟩
            | scrape => exact .scraped action accepted
            | error => exact .unexplained linked action
  · exact .unlinked (by simpa [Linked] using linked)

/-- Everything but an accepted connection request and an admitted announce
leaves the database alone, also when the worker crashes. -/
theorem store_serve_of_idle (notConnected : ¬world.Connected host config arrival)
    (notAdmitted : ¬world.Admitted host config arrival) :
    (world.serve host config arrival).2.store = world.store := by
  cases world.route host config arrival with
  | unlinked context => exact (serve_of_unlinked host config world arrival context).2.1
  | unexplained linked action =>
      rw [serve_of_error host config world arrival linked action, acquired_store]
  | rejected linked rejected harmless =>
      exact (serve_of_rejected host config world arrival linked rejected harmless).2.1
  | connected connected => exact absurd connected notConnected
  | refused action accepted refused =>
      exact (serve_of_refused host config world arrival action accepted refused).2.1
  | admitted admitted => exact absurd admitted notAdmitted
  | scraped action accepted =>
      exact store_serve_of_scrape host config world arrival accepted.1 action

end World

end BtTracker
