import BtTracker.Correctness.Jobs

/-!
# Who owns a context

A thread keeps at most one context, in its slot.  `bt_request_processor` jumps
into the middle of a block when the ping fails and overwrites its own pointer
before the slot is replaced, but the old context stays reachable through the
slot until `g_private_replace` releases it.
-/

namespace BtTracker

open BtTracker.Foundation
open BtTracker.Foundation.Program (Ensures Performs Runs)
open Ledger (Tracks)

namespace Ledger

/-- The slot is empty or holds the context that was opened last, which is not
released, and every other context is. -/
structure Owned (ledger : Ledger) : Prop where
  holds : Usage.Holds ledger.history ledger.slot
  last : ∀ redis, ledger.slot = some redis → ledger.lastOpened = some redis

/-- No context is released twice, and none is used before it is acquired or after
it is released. -/
structure Disciplined (ledger : Ledger) : Prop where
  once : ∀ redis, ledger.history.count (.released redis) ≤ 1
  alive : ∀ redis later earlier, ledger.history = later ++ .used redis :: earlier →
    .acquired redis ∈ earlier ∧ .released redis ∉ earlier

theorem Owned.disciplined {ledger : Ledger} (owned : ledger.Owned) : ledger.Disciplined :=
  ⟨owned.holds.sound.count_released_le, fun _ _ _ split => owned.holds.sound.live_of_used split⟩

theorem owned_initial : Ledger.initial.Owned := ⟨.nil, nofun⟩

/-! ## Acquiring a context -/

variable {host : Host} {config : BtConfig} {before : Ledger}

/-- The block behind the label: whatever comes of it, the old context is
released, and the slot holds what is returned. -/
theorem openRedis_ensures (owned : before.Owned) :
    Ensures Tracks (fun outcome ready => ready.Owned ∧ outcome = .ok ready.slot)
      (openRedis config) before := by
  intro answer connected tracked
  cases answer with
  | noMemory =>
      cases tracked
      intro _ replaced tracked
      cases tracked
      exact ⟨⟨owned.holds.release, nofun⟩, rfl⟩
  | failed conn =>
      obtain ⟨fresh, rfl⟩ := tracked
      intro _ freed tracked
      cases tracked
      intro _ replaced tracked
      cases tracked
      exact ⟨⟨(owned.holds.discard fresh).release, nofun⟩, rfl⟩
  | opened conn =>
      obtain ⟨fresh, rfl⟩ := tracked
      intro reply selected tracked
      obtain ⟨chosen, _, rfl⟩ := tracked
      intro _ replaced tracked
      cases tracked
      refine ⟨⟨owned.holds.exchange fresh, fun redis held => ?_⟩, rfl⟩
      cases held
      rfl

/-- Using the context in the slot. -/
theorem Owned.use {ledger after : Ledger} (owned : ledger.Owned) {redis : Context}
    (held : ledger.slot = some redis) (slot : after.slot = ledger.slot)
    (lastOpened : after.lastOpened = ledger.lastOpened)
    (history : after.history = .used redis :: ledger.history) : after.Owned := by
  have holds := owned.holds
  rw [held] at holds
  constructor
  · rw [history, slot, held]
    exact holds.use
  · rw [slot, lastOpened]
    exact owned.last

/-- A command on the context in the slot. -/
theorem Owned.command {ledger after : Ledger} (owned : ledger.Owned) {redis : Context}
    (held : ledger.slot = some redis) {request : Redis.Command} {reply : Option Redis.Reply}
    (tracked : ledger.Tracks (.redisCommand redis request) reply after) :
    after.Owned ∧ after.slot = some redis := by
  cases request with
  | select database =>
      obtain ⟨chosen, _, rfl⟩ := tracked
      exact ⟨owned.use held rfl rfl rfl, held⟩
  | _ =>
      cases tracked
      exact ⟨owned.use held rfl rfl rfl, held⟩

variable (config) in
theorem stable_owned : Stable Tracks config Owned where
  tracks tracked := tracked
  opens owned := openRedis_ensures owned
  commands owned held _ tracked := owned.command held tracked
  sends _ owned := ⟨owned.holds, owned.last⟩

end Ledger

variable {host : Host} {config : BtConfig} {before : Ledger}

theorem BetweenJobs.owned (idle : BetweenJobs Tracks host config before) : before.Owned :=
  (Ledger.stable_owned config).betweenJobs Ledger.owned_initial idle

/-- Over all jobs of a thread: between two jobs and at every dispatch, the slot
is empty or holds the last context that was opened, and nothing else is left
open; a handler is entered with the live context in the slot, and without one
the only thing that happens is that the error is sent; no context is released
twice or used after its release, also in a job that crashes. -/
theorem BetweenJobs.contexts (idle : BetweenJobs Tracks host config before)
    (params : BtJobParams) :
    before.Owned ∧
      (∀ redis ready, Runs Tracks (acquireRedis config) before (.ok redis) ready →
        ready.Owned ∧ redis = ready.slot ∧
          (∀ context, redis = some context → Usage.Live ready.history context) ∧
          (redis = none → ∀ outcome after,
            Runs Tracks (answerWith host config params redis) ready outcome after →
              outcome = .ok () ∧ after = { ready with
                sent := ready.sent ++ [errorBlock host
                  (btReadRequestData host params.buff).transactionId storageUnavailable] })) ∧
      ∀ outcome after, Runs Tracks (btRequestProcessor host config params) before outcome after →
        after.Disciplined := by
  have owned := idle.owned
  refine ⟨owned, fun redis ready ran => ?_, fun outcome after ran => ?_⟩
  · obtain ⟨owned, returned⟩ := ((Ledger.stable_owned config).acquireRedis_ensures owned).runs ran
    cases returned
    refine ⟨owned, rfl, fun context held => (owned.holds.live_iff context).mpr held, ?_⟩
    intro empty outcome after ran
    rw [empty, Ledger.answerWith_none] at ran
    cases ran with
    | call tracked rest =>
        cases tracked
        cases rest
        exact ⟨rfl, rfl⟩
  · exact (((Ledger.stable_owned config).btRequestProcessor_ensures owned params).runs ran).disciplined

/-- A job for the announce of `BtAnnounceReq.sample`. -/
def announceJob : BtJobParams := .received (fun _ => 0) (BtAnnounceReq.sample 5 2).datagram

/-- The first job of a thread, in front of a server that says yes to everything. -/
def firstJob (host : Host) (config : BtConfig) : Except Fault Unit × Ledger :=
  Program.run (Ledger.exec true fun _ => some (.status (ascii "OK")))
    (btRequestProcessor host config announceJob) .initial

/-- The second one loses its ping and finds nobody to connect to. -/
def outageJob : Except Fault Unit × Ledger :=
  Program.run (Ledger.exec false fun _ => none) (btRequestProcessor .little .shipped announceJob)
    (firstJob .little .shipped).2

/-- Redis is back for the third one. -/
def recoveredJob : Except Fault Unit × Ledger :=
  Program.run (Ledger.exec true fun _ => some (.status (ascii "OK")))
    (btRequestProcessor .little .shipped announceJob) outageJob.2

/-- A job in front of a server with fixed replies. -/
private theorem BetweenJobs.exec (idle : BetweenJobs Tracks host config before) (accepts : Bool)
    (reply : Redis.Command → Option Redis.Reply) (params : BtJobParams)
    (finished : (Program.run (Ledger.exec accepts reply) (btRequestProcessor host config params)
      before).1 = .ok ()) :
    BetweenJobs Tracks host config
      (Program.run (Ledger.exec accepts reply) (btRequestProcessor host config params) before).2 :=
  .job idle params (finished ▸ Program.runs_run _ (Ledger.tracks_exec accepts reply) _ _)

/-- The outage costs the thread its context; the one that could not be connected
never reaches the slot, and the next one does. -/
theorem contexts_recoveredJob :
    (firstJob .little .shipped).2.slot = some 0 ∧ outageJob.2.slot = none ∧
      recoveredJob.2.slot = some 2 ∧ recoveredJob.2.Owned ∧
      ∀ outcome after, Runs Tracks (btRequestProcessor .little .shipped announceJob) recoveredJob.2
        outcome after → after.Disciplined := by
  have first : BetweenJobs Tracks .little .shipped (firstJob .little .shipped).2 :=
    BetweenJobs.exec .start true _ announceJob (by decide +kernel)
  have second : BetweenJobs Tracks .little .shipped outageJob.2 :=
    BetweenJobs.exec first false _ announceJob (by decide +kernel)
  have third : BetweenJobs Tracks .little .shipped recoveredJob.2 :=
    BetweenJobs.exec second true _ announceJob (by decide +kernel)
  obtain ⟨owned, -, disciplined⟩ := BetweenJobs.contexts third announceJob
  exact ⟨by decide +kernel, by decide +kernel, by decide +kernel, owned, disciplined⟩

end BtTracker
