import BtTracker.Properties.Ownership

/-!
# Which database a thread works on

A new context starts on database 0.  `bt_redis_connect` asks for the configured
database but does not look at the reply, so the context it returns may still be
on the other one.
-/

namespace BtTracker

open BtTracker.Foundation
open BtTracker.Foundation.Program (Ensures Performs Runs)

/-- The server agrees to every `SELECT`. -/
def Op.Agreed : (op : Op) → op.Answer → Prop
  | .redisCommand _ (.select _), reply => ∃ agreed, reply = some agreed ∧ agreed.isError = false
  | _, _ => True

namespace Ledger

/-- What may happen as long as the server agrees to every `SELECT`. -/
def Agrees (ledger : Ledger) (op : Op) (answer : op.Answer) (after : Ledger) : Prop :=
  ledger.Tracks op answer after ∧ op.Agreed answer

/-- Every command about the contents of a database went to the one that is
configured. -/
def Directed (config : BtConfig) (ledger : Ledger) : Prop :=
  ∀ request database, (request, database) ∈ ledger.commands → request.Accesses →
    database = config.redisDb.toNat

/-- The context in the slot is on the configured database as well. -/
structure Aligned (config : BtConfig) (ledger : Ledger) : Prop where
  directed : ledger.Directed config
  slot : ∀ redis, ledger.slot = some redis → ledger.databases redis = config.redisDb.toNat

variable {host : Host} {config : BtConfig} {before : Ledger}

theorem Switches.of_agreed {reply : Option Redis.Reply} {old target chosen : Nat}
    (switches : Switches reply old target chosen)
    (agreed : ∃ agreed, reply = some agreed ∧ agreed.isError = false) : chosen = target := by
  obtain ⟨agreed, rfl, fine⟩ := agreed
  rw [Switches, fine] at switches
  exact switches

/-- A context is returned only once it is on its database. -/
theorem btRedisConnect_ensures (unixSock : Option Bytes) (redisHost : Bytes) (port : BitVec 16)
    (timeout : BitVec 32) (db : BitVec 16) :
    Ensures Agrees (fun outcome after => after.commands = before.commands ∧
        ∃ redis, outcome = .ok redis ∧
          ∀ conn, redis = some conn → after.databases conn = db.toNat)
      (btRedisConnect unixSock redisHost port timeout db) before := by
  intro answer connected agreed
  cases answer with
  | noMemory =>
      cases agreed.1
      exact ⟨rfl, none, rfl, nofun⟩
  | failed conn =>
      obtain ⟨⟨fresh, rfl⟩, -⟩ := agreed
      intro _ freed agreed
      cases agreed.1
      exact ⟨rfl, none, rfl, nofun⟩
  | opened conn =>
      obtain ⟨⟨fresh, rfl⟩, -⟩ := agreed
      intro reply selected agreed
      obtain ⟨⟨chosen, switches, rfl⟩, accepted⟩ := agreed
      refine ⟨rfl, some conn, rfl, fun other returned => ?_⟩
      cases returned
      exact (if_pos rfl).trans (switches.of_agreed accepted)

theorem openRedis_aligned (directed : before.Directed config) :
    Ensures Agrees (fun outcome ready => ready.Aligned config ∧ outcome = .ok ready.slot)
      (openRedis config) before := by
  refine .bind (btRedisConnect_ensures _ _ _ _ _) ?_ ?_
  · rintro redis connected ⟨commands, _, returned, selected⟩
    cases returned
    intro _ replaced agreed
    cases agreed.1
    refine ⟨⟨?_, selected⟩, rfl⟩
    intro request database member
    exact directed request database (commands ▸ member)
  · rintro reason connected ⟨_, _, returned, _⟩
    cases returned

/-- A command on the context in the slot. -/
theorem Aligned.command {ledger after : Ledger} (aligned : ledger.Aligned config)
    {redis : Context} (held : ledger.slot = some redis) {request : Redis.Command}
    (stays : ∀ database, request ≠ .select database) {reply : Option Redis.Reply}
    (tracked : ledger.Tracks (.redisCommand redis request) reply after) :
    after.Aligned config ∧ after.slot = some redis := by
  have logged : after = { ledger with
      history := .used redis :: ledger.history
      commands := (request, ledger.databases redis) :: ledger.commands } := by
    cases request with
    | select database => exact absurd rfl (stays database)
    | _ => exact tracked
  subst logged
  refine ⟨⟨?_, aligned.slot⟩, held⟩
  intro other database member accesses
  rcases List.mem_cons.mp member with sent | earlier
  · cases sent
    exact aligned.slot redis held
  · exact aligned.directed other database earlier accesses

variable (config) in
theorem stable_aligned : Stable Agrees config (Aligned config) where
  tracks agreed := agreed.1
  opens aligned := openRedis_aligned aligned.directed
  commands aligned held stays agreed := aligned.command held stays agreed.1
  sends _ aligned := ⟨aligned.directed, aligned.slot⟩

end Ledger

open Ledger (Agrees Tracks)

variable {host : Host} {config : BtConfig} {before : Ledger}

theorem BetweenJobs.aligned (idle : BetweenJobs Agrees host config before) :
    before.Aligned config :=
  (Ledger.stable_aligned config).betweenJobs ⟨nofun, nofun⟩ idle

/-- As long as the server agrees to every `SELECT`, all commands of all jobs of a
thread go to the configured database, and `bt_redis_connect` returns only
contexts that are on it. -/
theorem BetweenJobs.directed (idle : BetweenJobs Agrees host config before)
    (params : BtJobParams) :
    (∀ outcome after, Runs Agrees (btRequestProcessor host config params) before outcome after →
      after.Directed config) ∧
    ∀ unixSock redisHost port timeout conn after,
      Runs Agrees (btRedisConnect unixSock redisHost port timeout config.redisDb) before
        (.ok (some conn)) after → after.databases conn = config.redisDb.toNat := by
  constructor
  · intro outcome after ran
    exact (((Ledger.stable_aligned config).btRequestProcessor_ensures idle.aligned params).runs
      ran).directed
  · intro unixSock redisHost port timeout conn after ran
    obtain ⟨_, redis, returned, selected⟩ := (Ledger.btRedisConnect_ensures _ _ _ _ _).runs ran
    cases returned
    exact selected conn rfl

/-- The shipped configuration, on another database. -/
def secondDatabase : BtConfig := { BtConfig.shipped with redisDb := 1 }

/-- A server that switches to that database. -/
theorem directed_firstJob :
    (firstJob .little secondDatabase).2.Directed secondDatabase := by
  have agrees (op : Op) (ledger : Ledger) :
      ledger.Agrees op (ledger.exec true (fun _ => some (.status (ascii "OK"))) op).1
        (ledger.exec true (fun _ => some (.status (ascii "OK"))) op).2 := by
    refine ⟨Ledger.tracks_exec true _ op ledger, ?_⟩
    cases op with
    | redisCommand redis request =>
        cases request with
        | select database => exact ⟨_, rfl, rfl⟩
        | _ => trivial
    | _ => trivial
  exact (BetweenJobs.directed .start announceJob).1 _ _ (Program.runs_run _ agrees _ _)

/-- An empty server with a single database. -/
def singleDatabase : Redis.Command → Option Redis.Reply
  | .select database =>
      some (if database = 0 then .status (ascii "OK")
        else .error (ascii "ERR DB index is out of range"))
  | .get _ | .hget _ _ => some .nil
  | .keys _ => some (.array [])
  | .sismember _ _ => some (.integer 0)
  | _ => some (.status (ascii "OK"))

/-- The server refuses to switch, and the announce is stored on the database the
context happens to be on. -/
theorem not_directed_singleDatabase :
    ∃ outcome after, Runs Tracks (btRequestProcessor .little secondDatabase announceJob) .initial
        outcome after ∧ ¬after.Directed secondDatabase := by
  refine ⟨_, _, Program.runs_run _ (Ledger.tracks_exec true singleDatabase) _ _, fun directed => ?_⟩
  have misdirected : (.get (connectionKey .little secondDatabase 0), 0) ∈
      (Program.run (Ledger.exec true singleDatabase)
        (btRequestProcessor .little secondDatabase announceJob) .initial).2.commands := by
    decide +kernel
  exact absurd (directed _ _ misdirected trivial) (by decide)

end BtTracker
