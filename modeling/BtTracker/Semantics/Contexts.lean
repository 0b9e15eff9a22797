import BtTracker.Foundation.Environment
import BtTracker.Foundation.Resource
import BtTracker.Model.Processor

/-!
# The contexts of a worker thread

What happens to the connections of one thread over all of its jobs, whatever
Redis does: contexts are allocated by hiredis, kept in the slot of the thread,
switched to a database, used and released.  Every reply is possible, and so is
every outcome of an attempt to connect.
-/

namespace BtTracker

open BtTracker.Foundation

/-- What is known about the connections of a thread.  A context that hiredis
returns with its error flag set counts as acquired too; `lastOpened` is the last
one without it.  `commands` lists what was sent, with the database it was meant
for. -/
structure Ledger where
  slot : Option Context
  lastOpened : Option Context
  history : List (Usage Context)
  databases : Context → Nat
  commands : List (Redis.Command × Nat)
  sent : List Block

namespace Ledger

/-- A thread that has not run a job yet. -/
def initial : Ledger := ⟨none, none, [], fun _ => 0, [], []⟩

/-- The database of a context after `SELECT`: it changes if the server agrees,
and a reply that never arrived says nothing. -/
def Switches (reply : Option Redis.Reply) (before target after : Nat) : Prop :=
  match reply with
  | none => after = before ∨ after = target
  | some reply => after = if reply.isError then before else target

/-- What an operation may do to the connections.  `g_private_replace` runs the
destroy function, which is `redisFree`, on the value it replaces; a context that
was just allocated differs from all others and starts on database 0. -/
def Tracks (ledger : Ledger) (op : Op) (answer : op.Answer) (after : Ledger) : Prop :=
  match op, answer with
  | .privateGet, redis => redis = ledger.slot ∧ after = ledger
  | .privateReplace redis, _ =>
      after = { ledger with
        slot := redis
        history := (ledger.slot.map Usage.released).toList ++ ledger.history }
  | .redisConnect _ _, .noMemory => after = ledger
  | .redisConnect _ _, .failed conn =>
      .acquired conn ∉ ledger.history ∧
        after = { ledger with history := .acquired conn :: ledger.history }
  | .redisConnect _ _, .opened conn =>
      .acquired conn ∉ ledger.history ∧
        after = { ledger with
          lastOpened := some conn
          history := .acquired conn :: ledger.history
          databases := fun other => if other = conn then 0 else ledger.databases other }
  | .redisFree conn, _ => after = { ledger with history := .released conn :: ledger.history }
  | .redisCommand conn (.select database), reply =>
      ∃ chosen, Switches reply (ledger.databases conn) database chosen ∧
        after = { ledger with
          history := .used conn :: ledger.history
          databases := fun other => if other = conn then chosen else ledger.databases other }
  | .redisCommand conn request, _ =>
      after = { ledger with
        history := .used conn :: ledger.history
        commands := (request, ledger.databases conn) :: ledger.commands }
  | .sendto _ data, _ => after = { ledger with sent := ledger.sent ++ [data] }
  | .rand, _ | .malloc, _ | .loadSockaddr _, _ => after = ledger

/-- A name that no context of the history has. -/
def fresh : List (Usage Context) → Context
  | [] => 0
  | .acquired conn :: history => max (conn + 1) (fresh history)
  | _ :: history => fresh history

/-- A server that accepts connections or refuses them, and has a fixed reply to
every command. -/
def exec (accepts : Bool) (reply : Redis.Command → Option Redis.Reply) :
    (op : Op) → Ledger → op.Answer × Ledger
  | .privateGet, ledger => (ledger.slot, ledger)
  | .privateReplace redis, ledger =>
      ((), { ledger with
        slot := redis
        history := (ledger.slot.map Usage.released).toList ++ ledger.history })
  | .redisConnect _ _, ledger =>
      if accepts then
        (.opened (fresh ledger.history), { ledger with
          lastOpened := some (fresh ledger.history)
          history := .acquired (fresh ledger.history) :: ledger.history
          databases := fun other =>
            if other = fresh ledger.history then 0 else ledger.databases other })
      else
        (.failed (fresh ledger.history),
          { ledger with history := .acquired (fresh ledger.history) :: ledger.history })
  | .redisFree conn, ledger =>
      ((), { ledger with history := .released conn :: ledger.history })
  | .redisCommand conn (.select database), ledger =>
      let chosen := if (reply (.select database)).all Redis.Reply.isError then
        ledger.databases conn else database
      (reply (.select database), { ledger with
        history := .used conn :: ledger.history
        databases := fun other => if other = conn then chosen else ledger.databases other })
  | .redisCommand conn request, ledger =>
      (reply request, { ledger with
        history := .used conn :: ledger.history
        commands := (request, ledger.databases conn) :: ledger.commands })
  | .sendto _ data, ledger => ((), { ledger with sent := ledger.sent ++ [data] })
  | .rand, ledger => (0, ledger)
  | .malloc, ledger => (fun _ => 0, ledger)
  | .loadSockaddr _, ledger => (⟨0, 0⟩, ledger)

theorem lt_fresh {conn : Context} {history : List (Usage Context)}
    (member : .acquired conn ∈ history) : conn < fresh history := by
  induction history with
  | nil => cases member
  | cons event history ih =>
      rcases List.mem_cons.mp member with rfl | earlier
      · exact Nat.lt_of_lt_of_le (Nat.lt_succ_self conn) (Nat.le_max_left ..)
      · have below := ih earlier
        cases event with
        | acquired other => exact Nat.lt_of_lt_of_le below (Nat.le_max_right ..)
        | used other | released other => exact below

/-- Such a server is one of those a thread may meet. -/
theorem tracks_exec (accepts : Bool) (reply : Redis.Command → Option Redis.Reply) (op : Op)
    (ledger : Ledger) :
    ledger.Tracks op (exec accepts reply op ledger).1 (exec accepts reply op ledger).2 := by
  cases op with
  | privateGet => exact ⟨rfl, rfl⟩
  | redisConnect endpoint timeout =>
      have unused : .acquired (fresh ledger.history) ∉ ledger.history :=
        fun member => Nat.lt_irrefl _ (lt_fresh member)
      cases accepts with
      | true => exact ⟨unused, rfl⟩
      | false => exact ⟨unused, rfl⟩
  | redisCommand conn request =>
      cases request with
      | select database =>
          refine ⟨_, ?_, rfl⟩
          cases answer : reply (.select database) <;> simp [exec, Switches, answer]
      | _ => rfl
  | _ => rfl

end Ledger

/-- The part of `bt_request_processor` behind the acquisition of a context: the
dispatch to a handler, and the response. -/
def answerWith (host : Host) (config : BtConfig) (params : BtJobParams) (redis : Option Context) :
    Worker Unit := do
  let request := btReadRequestData host params.buff
  let response ←
    match redis with
    | none =>
        dispatch host config params { request with action := BtAction.error.toWord }
          (some storageUnavailable) none
    | some redis => dispatch host config params request none (some redis)
  respond params response

theorem btRequestProcessor_eq (host : Host) (config : BtConfig) (params : BtJobParams) :
    btRequestProcessor host config params = acquireRedis config >>= answerWith host config params :=
  rfl

/-- The connections of a thread between two jobs.  A job that crashes has no
successor. -/
inductive BetweenJobs (environment : Environment Op Op.Answer Ledger) (host : Host)
    (config : BtConfig) : Ledger → Prop where
  | start : BetweenJobs environment host config .initial
  | job {before after : Ledger} (idle : BetweenJobs environment host config before)
      (params : BtJobParams)
      (ran : Program.Runs environment (btRequestProcessor host config params) before
        (.ok ()) after) :
      BetweenJobs environment host config after

end BtTracker
