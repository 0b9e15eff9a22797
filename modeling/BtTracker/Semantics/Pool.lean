import BtTracker.Semantics.World

/-!
# The receive loop and the worker threads

`main` receives datagrams into one buffer and one socket address cell and pushes
a job for each of them; the threads of the pool take the jobs in order and run
`bt_request_processor`.  Here every operation of a thread is a step of its own,
so between any two of them other threads may run, datagrams may arrive and keys
may expire.  The process ends with a signal, or when one of its threads crashes.
-/

namespace BtTracker

open BtTracker.Foundation

/-- A worker thread: its slot, and the job it is running with what is left of
its program. -/
structure Thread where
  slot : Option Context
  running : Option (Datagram × Worker Unit)

/-- An operation a thread has performed for a job, and what it sent. -/
structure Performed where
  job : Datagram
  op : Op
  answer : op.Answer
  sent : List (SockaddrIn × Block)

/-- What has become of the process: `main` is in its receive loop or in
`on_sigterm`, or the process is gone. -/
inductive Phase where
  | serving
  | closing
  | ended
  deriving DecidableEq, Repr

/-- The tracker process in front of its database.  `log` holds the operations of
all threads, the last one first. -/
structure Pool where
  phase : Phase
  store : Redis.Store
  siOther : SockaddrIn
  buff : RecvBuffer
  queue : List Datagram
  threads : List Thread
  nextContext : Context
  log : List Performed

/-- What may happen next.  `terminate` is the arrival of `SIGINT` or `SIGTERM`, and
`leave` the return of `g_thread_pool_free`. -/
inductive Action where
  | receive (sender : SockaddrIn) (data : Bytes)
  | spawn
  | take (thread : Nat)
  | step (thread : Nat) (choice : Choice)
  | terminate
  | leave
  | wait (seconds : Nat)
  | edit (whitelist : Bool) (members : Std.ExtTreeSet Bytes)

/-- What still happens in a phase.  `main` does not return to its loop from
`on_sigterm`, and once `g_thread_pool_free` was called with `immediate` set, no
thread takes another job.  The clock and the operator need no tracker. -/
def Phase.allows : Phase → Action → Bool
  | .serving, .leave => false
  | .serving, _ => true
  | .closing, .receive .. | .closing, .spawn | .closing, .take _ => false
  | .closing, _ => true
  | .ended, .wait _ | .ended, .edit .. => true
  | .ended, _ => false

namespace Pool

/-- The tracker right after its first start. -/
def start : Pool where
  phase := .serving
  store := .empty
  siOther := ⟨0, 0⟩
  buff := fun _ => 0
  queue := []
  threads := []
  nextContext := 0
  log := []

/-- What a thread sees of the pool during one operation. -/
def world (pool : Pool) (slot : Option Context) (choice : Choice) : World where
  store := pool.store
  siOther := pool.siOther
  slot := slot
  nextContext := pool.nextContext
  choices := fun _ => choice
  trace := []
  sent := []

/-- The jobs threads are running, those that crashed included. -/
def running (pool : Pool) : List Datagram :=
  pool.threads.filterMap fun thread => thread.running.map Prod.fst

/-- The pool after a thread has performed an operation. -/
def perform (pool : Pool) (index : Nat) (slot : Option Context) (job : Datagram) (op : Op)
    (next : op.Answer → Worker Unit) (choice : Choice) : Pool :=
  let (answer, after) := World.exec op (pool.world slot choice)
  { pool with
    store := after.store
    nextContext := after.nextContext
    threads := pool.threads.set index ⟨after.slot, some (job, next answer)⟩
    log := ⟨job, op, answer, after.sent⟩ :: pool.log }

/-- The key of a list of info hashes. -/
def listKey (config : BtConfig) (whitelist : Bool) : Bytes :=
  restrictionKey config (if whitelist then ascii "wl" else ascii "bl")

/-- `on_sigterm`, up to its call of `g_thread_pool_free`.  A second signal ends the
process: `on_sigterm` restores the default action of the first one and raises the other
one again, as the pool is being freed already. -/
def onSigterm (pool : Pool) : Pool :=
  match pool.phase with
  | .serving => { pool with phase := .closing }
  | .closing | .ended => { pool with phase := .ended }

/-- The rest of `on_sigterm`.  As `wait` is set, `g_thread_pool_free` returns when all
threads are idle; the jobs in the queue are dropped, and the signal is raised again. -/
def leave (pool : Pool) : Pool :=
  if pool.threads.all (·.running.isNone) then { pool with phase := .ended } else pool

/-- One action of those a phase allows.  A thread that runs into a fault takes the
process down. -/
def advance (host : Host) (config : BtConfig) (pool : Pool) : Action → Pool
  | .receive sender data =>
      { pool with
        siOther := sender
        buff := pool.buff.recvfrom data
        queue := pool.queue ++ [⟨.received pool.buff data, sender⟩] }
  | .spawn => { pool with threads := pool.threads ++ [⟨none, none⟩] }
  | .take index =>
      match pool.threads[index]?, pool.queue with
      | some ⟨slot, none⟩, job :: rest =>
          { pool with
            queue := rest
            threads := pool.threads.set index
              ⟨slot, some (job, btRequestProcessor host config job.params)⟩ }
      | _, _ => pool
  | .step index choice =>
      match pool.threads[index]? with
      | some ⟨slot, some (job, .call op next)⟩ => pool.perform index slot job op next choice
      | some ⟨slot, some (_, .done _)⟩ =>
          { pool with threads := pool.threads.set index ⟨slot, none⟩ }
      | some ⟨_, some (_, .fault _)⟩ => { pool with phase := .ended }
      | _ => pool
  | .terminate => pool.onSigterm
  | .leave => pool.leave
  | .wait seconds => { pool with store := pool.store.advance seconds }
  | .edit whitelist members =>
      { pool with store := pool.store.put (listKey config whitelist) ⟨.set members, none⟩ }

/-- One action.  What is not possible does not happen. -/
def act (host : Host) (config : BtConfig) (pool : Pool) (action : Action) : Pool :=
  if pool.phase.allows action then pool.advance host config action else pool

section Act

variable (host : Host) (config : BtConfig) (pool : Pool)

/-- The clock goes on whatever becomes of the process. -/
@[simp] theorem act_wait (seconds : Nat) :
    pool.act host config (.wait seconds) = { pool with store := pool.store.advance seconds } := by
  rw [act, if_pos]
  · rfl
  · cases pool.phase <;> rfl

@[simp] theorem act_edit (whitelist : Bool) (members : Std.ExtTreeSet Bytes) :
    pool.act host config (.edit whitelist members) =
      { pool with store := pool.store.put (listKey config whitelist) ⟨.set members, none⟩ } := by
  rw [act, if_pos]
  · rfl
  · cases pool.phase <;> rfl

variable {pool}

theorem act_of_serving (serving : pool.phase = .serving) {action : Action}
    (other : action ≠ .leave) :
    pool.act host config action = pool.advance host config action := by
  rw [act, serving, if_pos]
  cases action with
  | leave => exact absurd rfl other
  | _ => rfl

/-- Threads get their turns while the process is there. -/
theorem act_step (alive : pool.phase ≠ .ended) (index : Nat) (choice : Choice) :
    pool.act host config (.step index choice) =
      pool.advance host config (.step index choice) := by
  rw [act, if_pos]
  cases phase : pool.phase with
  | ended => exact absurd phase alive
  | serving | closing => rfl

end Act

/-- Everything an action may do. -/
inductive Changes (host : Host) (config : BtConfig) (pool : Pool) : Action → Pool → Prop where
  | receive (sender : SockaddrIn) (data : Bytes) (serving : pool.phase = .serving) :
      Changes host config pool (.receive sender data)
        { pool with
          siOther := sender
          buff := pool.buff.recvfrom data
          queue := pool.queue ++ [⟨.received pool.buff data, sender⟩] }
  | spawn (serving : pool.phase = .serving) : Changes host config pool .spawn
      { pool with threads := pool.threads ++ [⟨none, none⟩] }
  | take {index : Nat} {slot : Option Context} {job : Datagram} {rest : List Datagram}
      (serving : pool.phase = .serving) (idle : pool.threads[index]? = some ⟨slot, none⟩)
      (queued : pool.queue = job :: rest) :
      Changes host config pool (.take index)
        { pool with
          queue := rest
          threads := pool.threads.set index
            ⟨slot, some (job, btRequestProcessor host config job.params)⟩ }
  | perform {index : Nat} {slot : Option Context} {job : Datagram} {op : Op}
      {next : op.Answer → Worker Unit} (choice : Choice)
      (calls : pool.threads[index]? = some ⟨slot, some (job, .call op next)⟩) :
      Changes host config pool (.step index choice)
        (pool.perform index slot job op next choice)
  | finish {index : Nat} {slot : Option Context} {job : Datagram} {result : Unit}
      (choice : Choice) (ends : pool.threads[index]? = some ⟨slot, some (job, .done result)⟩) :
      Changes host config pool (.step index choice)
        { pool with threads := pool.threads.set index ⟨slot, none⟩ }
  | wait (seconds : Nat) : Changes host config pool (.wait seconds)
      { pool with store := pool.store.advance seconds }
  | edit (whitelist : Bool) (members : Std.ExtTreeSet Bytes) :
      Changes host config pool (.edit whitelist members)
        { pool with store := pool.store.put (listKey config whitelist) ⟨.set members, none⟩ }
  | turns (action : Action) (phase : Phase) : Changes host config pool action
      { pool with phase := phase }

theorem changes_act (host : Host) (config : BtConfig) (pool : Pool) (action : Action) :
    pool.Changes host config action (pool.act host config action) := by
  have idles (action : Action) : pool.Changes host config action pool := .turns action pool.phase
  rw [act]
  split
  case isFalse => exact idles action
  rename_i allowed
  have serves (needs : ∀ phase, phase ≠ .serving → Phase.allows phase action = false) :
      pool.phase = .serving := by
    by_contra other
    rw [needs _ other] at allowed
    cases allowed
  cases action with
  | receive sender data =>
      exact .receive sender data (serves fun phase other => by cases phase <;> trivial)
  | spawn => exact .spawn (serves fun phase other => by cases phase <;> trivial)
  | take index =>
      have serving := serves fun phase other => by cases phase <;> trivial
      rw [advance]
      split
      · exact .take serving ‹_› ‹_›
      · exact idles _
  | step index choice =>
      rw [advance]
      split
      · exact .perform choice ‹_›
      · exact .finish choice ‹_›
      · exact .turns _ _
      · exact idles _
  | terminate =>
      rw [advance, onSigterm]
      split <;> exact .turns _ _
  | leave =>
      rw [advance, leave]
      split
      · exact .turns _ _
      · exact idles _
  | wait seconds => exact .wait seconds
  | edit whitelist members => exact .edit whitelist members

/-- Pools a schedule may reach from an empty database, with the schedule so far,
the last action first.  Every action must be possible and permitted where it
happens. -/
inductive Reached (host : Host) (config : BtConfig)
    (permits : List Action → Pool → Action → Prop) : List Action → Pool → Prop where
  | start : Reached host config permits [] start
  | act {schedule : List Action} {pool : Pool}
      (reached : Reached host config permits schedule pool) (action : Action)
      (possible : pool.phase.allows action = true) (permitted : permits schedule pool action) :
      Reached host config permits (action :: schedule) (pool.act host config action)

/-- Perform a list of actions, first one first. -/
def run (host : Host) (config : BtConfig) (pool : Pool) (actions : List Action) : Pool :=
  actions.foldl (act host config) pool

/-- Each action of a list is possible where it happens. -/
def possible (host : Host) (config : BtConfig) (pool : Pool) : List Action → Bool
  | [] => true
  | action :: rest =>
      pool.phase.allows action && (pool.act host config action).possible host config rest

/-- Each action of a list is permitted where it happens. -/
def Permitted (host : Host) (config : BtConfig) (permits : List Action → Pool → Action → Prop) :
    List Action → Pool → List Action → Prop
  | _, _, [] => True
  | schedule, pool, action :: rest =>
      permits schedule pool action ∧
        Permitted host config permits (action :: schedule) (pool.act host config action) rest

instance decidablePermitted (host : Host) (config : BtConfig)
    (permits : List Action → Pool → Action → Prop)
    [∀ schedule pool action, Decidable (permits schedule pool action)] :
    (schedule : List Action) → (pool : Pool) → (actions : List Action) →
      Decidable (Permitted host config permits schedule pool actions)
  | _, _, [] => .isTrue trivial
  | schedule, pool, action :: rest =>
      have := decidablePermitted host config permits (action :: schedule)
        (pool.act host config action) rest
      inferInstanceAs (Decidable (_ ∧ _))

/-- A list of actions that are possible and permitted where they happen. -/
theorem Reached.along {host : Host} {config : BtConfig}
    {permits : List Action → Pool → Action → Prop} {schedule : List Action} {pool : Pool}
    (reached : Reached host config permits schedule pool) (actions : List Action)
    (possible : pool.possible host config actions = true)
    (permitted : Permitted host config permits schedule pool actions) :
    Reached host config permits (actions.reverse ++ schedule) (pool.run host config actions) := by
  induction actions generalizing schedule pool with
  | nil => exact reached
  | cons action rest ih =>
      rw [List.reverse_cons, List.append_assoc]
      obtain ⟨now, later⟩ := Bool.and_eq_true_iff.mp possible
      exact ih (reached.act action now permitted.1) later permitted.2

/-- A list of actions each of which is permitted anywhere. -/
theorem Reached.run {host : Host} {config : BtConfig} {permits : Action → Prop}
    {schedule : List Action} {pool : Pool}
    (reached : Reached host config (fun _ _ => permits) schedule pool) (actions : List Action)
    (possible : pool.possible host config actions = true)
    (permitted : ∀ action ∈ actions, permits action) :
    Reached host config (fun _ _ => permits) (actions.reverse ++ schedule)
      (pool.run host config actions) := by
  apply reached.along actions possible
  clear reached possible
  induction actions generalizing schedule pool with
  | nil => trivial
  | cons action rest ih =>
      exact ⟨permitted action (List.mem_cons_self ..),
        ih fun other member => permitted other (List.mem_cons_of_mem _ member)⟩

end Pool

end BtTracker
