import BtTracker.Correctness.Update

/-!
# Which records a datagram reads

Apart from the key of its connection, a job reads only what it has just listed,
and a listing holds only what exists.  So a record that is missing when the
answer is assembled is not read at all, whichever way the datagram goes.
-/

namespace BtTracker

open BtTracker.Foundation

variable {host : Host} {config : BtConfig} {world : World} {arrival : Arrival} {key : Bytes}

namespace World

/-- No record was read under a key since the datagram arrived. -/
def Unread (world : World) (key : Bytes) : Prop :=
  ∀ reply, (Redis.Command.get key, reply) ∉ world.trace

theorem Unread.command (unread : world.Unread key) {request : Redis.Command}
    (other : request ≠ .get key) : (world.command request).2.Unread key := by
  intro reply member
  rcases List.mem_append.mp member with earlier | now
  · exact unread reply earlier
  · exact other (congrArg Prod.fst (List.mem_singleton.mp now)).symm

/-- One operation of a worker that looks around. -/
private theorem exec_of_browses {known : Bytes → Prop} (unknown : ¬known key)
    {listed : List Bytes} {op : Op} (browses : op.Browses known listed)
    (unlisted : key ∉ listed) (missing : world.store.find? key = none)
    (unread : world.Unread key) :
    key ∉ nextListing listed op (exec op world).1 ∧ (exec op world).2.Unread key := by
  cases op with
  | redisCommand redis request =>
      cases request with
      | setex _ _ _ | del _ | rename _ _ | hincrby _ _ _ => exact browses.elim
      | get other =>
          refine ⟨unlisted, unread.command ?_⟩
          rintro equal
          cases equal
          exact browses.elim unknown unlisted
      | keys pattern =>
          refine ⟨?_, unread.command (by simp)⟩
          simp only [exec]
          cases replied : (world.command (.keys pattern)).1 with
          | none => exact unlisted
          | some reply =>
              cases reply with
              | array elements =>
                  exact fun member => Redis.Store.mem_of_deliver_keys replied member missing
              | _ => exact unlisted
      | ping | select _ | hget _ _ | sismember _ _ => exact ⟨unlisted, unread.command (by simp)⟩
  | sendto address data | loadSockaddr address => exact browses.elim
  | _ => exact ⟨unlisted, unread⟩

/-- A worker that looks around reads nothing that does not exist, except what it
knows by name. -/
theorem Unread.run_of_browses {α : Type} (known : Bytes → Prop) {program : Worker α}
    (browses : Worker.Browses known program) (unknown : ¬known key)
    (missing : world.store.find? key = none) (unread : world.Unread key) :
    (world.run program).2.Unread key := by
  let invariant (listed : List Bytes) (world : World) : Prop :=
    key ∉ listed ∧ world.store.find? key = none ∧ world.Unread key
  have step (listed : List Bytes) (op : Op) (world : World) (allowed : op.Browses known listed)
      (holds : invariant listed world) :
      invariant (nextListing listed op (exec op world).1) (exec op world).2 := by
    obtain ⟨unlisted, missing, unread⟩ := holds
    obtain ⟨stillUnlisted, stillUnread⟩ :=
      exec_of_browses unknown allowed unlisted missing unread
    refine ⟨stillUnlisted, ?_, stillUnread⟩
    rw [(exec_of_observes allowed.observes world).1]
    exact missing
  obtain ⟨_, ⟨_, _, kept⟩, _⟩ := Program.Follows.run_invariant exec invariant step
    (browses.follows []) ⟨List.not_mem_nil, missing, unread⟩
  exact kept

theorem trace_run_bind_respond (params : BtJobParams) (handler : Worker (Option Block))
    (world : World) :
    (world.run (handler >>= respond params)).2.trace = (world.run handler).2.trace := by
  cases result : world.run handler with
  | mk outcome after =>
      cases outcome with
      | ok response =>
          rw [run_bind_of_ok result]
          cases response <;> rfl
      | error reason => rw [run_bind_of_error result]

theorem trace_run_map {α β : Type} (function : α → β) (program : Worker α) (world : World) :
    (world.run (function <$> program)).2.trace = (world.run program).2.trace := by
  rw [Program.map_eq_bind]
  cases result : world.run program with
  | mk outcome after =>
      cases outcome with
      | ok value => rw [run_bind_of_ok result, run_done]
      | error reason => rw [run_bind_of_error result]

/-! ## One datagram -/

section Serve

variable (host config world arrival)

/-- The trace of a datagram that has a connection to Redis. -/
theorem trace_serve_of_linked {redis : Context}
    (context : (world.acquired config arrival).1 = some redis) :
    (world.serve host config arrival).2.trace =
      ((world.acquired config arrival).2.run
        (dispatch host config arrival.params (arrival.request host) none (some redis))).2.trace := by
  rw [serve_of_linked host config world arrival context, trace_run_bind_respond]

end Serve

theorem Unread.of_trace {other : World} (unread : world.Unread key)
    (same : other.trace = world.trace) : other.Unread key := by
  rw [Unread, same]
  exact unread

section Stages

variable (notConnection : key ≠ arrival.connectionKey host config)
  (missing : world.store.find? key = none)

include missing in
theorem unread_acquired : (world.acquired config arrival).2.Unread key := by
  have received : (world.receive arrival).Unread key := fun _ => List.not_mem_nil
  rw [acquired_eq]
  exact received.run_of_browses (fun _ => False) (acquireRedis_browses config) id missing

include missing notConnection in
theorem unread_validated : (world.validated host config arrival).2.Unread key := by
  refine (unread_acquired missing).run_of_browses (· = arrival.connectionKey host config)
    (btValidRequest_browses host _ config _ _ rfl) notConnection ?_
  rw [acquired_store, missing]

include missing notConnection in
theorem unread_screened : (world.screened host config arrival).2.Unread key := by
  refine (unread_validated notConnection missing).run_of_browses (fun _ => False)
    (btInfoHashBlacklisted_browses _ config _) id ?_
  rw [validated_store, missing]

include missing notConnection in
/-- The update of the peer list reads nothing. -/
theorem unread_updated (linked : world.Linked config arrival) :
    (world.updated host config arrival).2.Unread key := by
  refine updated_invariant host config world arrival linked (·.Unread key) (fun _ => id) ?_
    (unread_screened notConnection missing)
  rintro world request writes unread
  refine unread.command ?_
  rintro rfl
  exact writes trivial

include missing notConnection in
/-- A datagram reads nothing that is missing when its answer is assembled. -/
theorem unread_serve
    (stays : world.Admitted host config arrival →
      (world.updated host config arrival).2.store.find? key = none) :
    (world.serve host config arrival).2.Unread key := by
  have acquired : (world.acquired config arrival).2.Unread key := unread_acquired missing
  have validated := unread_validated notConnection missing
  cases world.route host config arrival with
  | unlinked context =>
      refine acquired.of_trace ?_
      rw [serve_eq_of_unlinked host config world arrival context, trace_run_bind_respond]
      rfl
  | unexplained linked action =>
      rw [serve_of_error host config world arrival linked action]
      exact acquired
  | rejected linked rejected harmless =>
      obtain ⟨redis, context⟩ := Option.isSome_iff_exists.mp linked
      have trace := trace_serve_of_linked host config world arrival context
      rw [run_dispatch_of_rejected host config world arrival context rejected harmless] at trace
      split at trace
      · exact acquired.of_trace trace
      · exact validated.of_trace trace
  | connected connected =>
      obtain ⟨redis, context⟩ := Option.isSome_iff_exists.mp connected.accepted.1
      have trace := trace_serve_of_linked host config world arrival context
      rw [run_dispatch_of_connected host config world arrival connected context] at trace
      have drawn : (world.issued host config arrival).2.Unread key := by
        rw [issued_eq]
        refine validated.run_of_browses (fun _ => False) (btRandomInt64_browses host) id ?_
        rw [validated_store, missing]
      have recorded : ((world.issued host config arrival).2.command
          (world.issueCommand host config arrival)).2.Unread key := drawn.command nofun
      exact recorded.of_trace trace
  | refused action accepted refused =>
      obtain ⟨redis, context⟩ := Option.isSome_iff_exists.mp accepted.1
      have trace := trace_serve_of_linked host config world arrival context
      rw [run_dispatch_of_refused host config world arrival action accepted refused
        context] at trace
      exact (unread_screened notConnection missing).of_trace trace
  | admitted admitted =>
      have answered : ((world.updated host config arrival).2.run
          (some <$> answerAnnounce host (arrival.request host) config (arrival.announce host)
            (infoHashText (arrival.announce host).infoHash) (arrival.isSeeder host)
            (world.acquired config arrival).1)).2.Unread key :=
        (unread_updated notConnection missing admitted.accepted.1).run_of_browses (fun _ => False)
          (.bind (answerAnnounce_browses ..) fun _ => .done _) id (stays admitted)
      refine answered.of_trace ?_
      rw [serve_of_admitted host config world arrival admitted, trace_run_bind_respond]
  | scraped action accepted =>
      have handled := acquired.run_of_browses (· = arrival.connectionKey host config)
        (btHandleScrape_browses host (world.acquired config arrival).1 config
          (arrival.request host) arrival.params.buff arrival.params.buflen rfl) notConnection
        (by rw [acquired_store, missing])
      refine handled.of_trace ?_
      rw [serve_of_scrape host config world arrival accepted.1 action, trace_run_bind_respond]

end Stages

end World

end BtTracker
