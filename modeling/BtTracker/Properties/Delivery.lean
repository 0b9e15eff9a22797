import BtTracker.Correctness.Effort
import BtTracker.Correctness.Threads

/-!
# From datagrams to responses

The receive loop pushes a job for every datagram, the threads take the jobs in
order, and a job that is done is forgotten.  However the threads are scheduled and
whatever Redis does, no job is lost or handled twice, and for each job there is at
most one response and at most one decision about the database.
-/

namespace BtTracker

open BtTracker.Foundation
open BtTracker.Foundation.Program (AtMostOnce MayPerform Performs)

variable (host : Host) (config : BtConfig)

namespace Pool

/-! ## The jobs of a schedule -/

/-- The pool a schedule leads to, the last action first. -/
def replay : List Action → Pool
  | [] => start
  | action :: earlier => (replay earlier).act host config action

/-- The job that an action adds to the queue. -/
def arriving (pool : Pool) : Action → List Datagram
  | .receive sender data => [⟨.received pool.buff data, sender⟩]
  | _ => []

/-- The job that an action hands to a thread. -/
def starting (pool : Pool) : Action → List Datagram
  | .take index =>
      match pool.threads[index]?, pool.queue with
      | some ⟨_, none⟩, job :: _ => [job]
      | _, _ => []
  | _ => []

/-- The job that ends with an action. -/
def ending (pool : Pool) : Action → List Datagram
  | .step index _ =>
      match pool.threads[index]? with
      | some ⟨_, some (job, .done _)⟩ => [job]
      | _ => []
  | _ => []

/-- The jobs of all actions of a schedule, first one first. -/
def jobs (select : Pool → Action → List Datagram) : List Action → List Datagram
  | [] => []
  | action :: earlier => jobs select earlier ++ select (replay host config earlier) action

end Pool

/-! ## Counting operations -/

section Counting

variable (special : Op → Prop) [DecidablePred special] (kind : Datagram → Bool)

/-- Operations of a sort performed so far for jobs of a kind. -/
def Pool.performed (pool : Pool) : Nat :=
  pool.log.countP fun performed => kind performed.job && decide (special performed.op)

/-- The thread runs a job of the kind that may still perform such an operation. -/
def Thread.MayPerform (thread : Thread) : Prop :=
  ∃ job program, thread.running = some (job, program) ∧ kind job = true ∧
    Program.MayPerform special program

open scoped Classical in
/-- Operations of a sort that may still come for jobs of a kind. -/
noncomputable def Pool.pending (pool : Pool) : Nat :=
  pool.threads.countP fun thread => decide (thread.MayPerform special kind)

end Counting

instance : DecidablePred Op.Responds
  | .sendto .. => .isTrue trivial
  | .privateGet | .privateReplace _ | .redisConnect .. | .redisFree _ | .redisCommand .. | .rand
  | .malloc | .loadSockaddr _ => .isFalse id

instance : DecidablePred Redis.Command.Decides
  | .setex .. | .del _ | .rename .. => .isTrue trivial
  | .ping | .select _ | .get _ | .hincrby .. | .hget .. | .sismember .. | .keys _ => .isFalse id

instance : DecidablePred Op.Decides
  | .redisCommand _ request => inferInstanceAs (Decidable request.Decides)
  | .privateGet | .privateReplace _ | .redisConnect .. | .redisFree _ | .rand | .malloc
  | .loadSockaddr _ | .sendto .. => .isFalse id

variable {host config}

/-! ## No job is lost -/

/-- Replacing one element changes what is selected from a list by the difference
between the two elements. -/
theorem filterMap_set_perm {α β : Type} (select : α → Option β) {list : List α} {index : Nat}
    {old : α} (found : list[index]? = some old) (new : α) :
    ((select old).toList ++ (list.set index new).filterMap select).Perm
      ((select new).toList ++ list.filterMap select) := by
  induction list generalizing index with
  | nil => cases found
  | cons head tail ih =>
      have cons (item : α) (rest : List α) :
          (item :: rest).filterMap select = (select item).toList ++ rest.filterMap select := by
        rw [List.filterMap_cons]
        cases select item <;> rfl
      cases index with
      | zero =>
          cases found
          rw [List.set_cons_zero, cons, cons]
          exact List.perm_append_comm_assoc ..
      | succ index =>
          rw [List.set_cons_succ, cons, cons]
          have rest := ih found
          exact (List.perm_append_comm_assoc ..).trans
            ((rest.append_left _).trans (List.perm_append_comm_assoc ..))

namespace Pool

variable {pool after : Pool} {permits : List Action → Pool → Action → Prop}
  {schedule : List Action}

theorem Reached.eq_replay (reached : Reached host config permits schedule pool) :
    pool = replay host config schedule := by
  induction reached with
  | start => rfl
  | act reached action possible permitted ih => rw [ih, replay]

/-- What arrives is queued last, and what starts was queued first. -/
theorem queue_act (host : Host) (config : BtConfig) (pool : Pool) (action : Action)
    (possible : pool.phase.allows action = true) :
    pool.queue ++ pool.arriving action =
      pool.starting action ++ (pool.act host config action).queue := by
  rw [act, if_pos possible]
  cases action with
  | receive sender data => rfl
  | take index =>
      cases found : pool.threads[index]? with
      | none => simp [arriving, starting, advance, found]
      | some thread =>
          obtain ⟨slot, running⟩ := thread
          cases running with
          | none => cases queued : pool.queue <;> simp [arriving, starting, advance, found, queued]
          | some running => simp [arriving, starting, advance, found]
  | step index choice =>
      simp only [arriving, starting, advance, List.append_nil, List.nil_append]
      split <;> rfl
  | terminate =>
      simp only [arriving, starting, advance, onSigterm, List.append_nil, List.nil_append]
      split <;> rfl
  | leave =>
      simp only [arriving, starting, advance, leave, List.append_nil, List.nil_append]
      split <;> rfl
  | spawn | wait seconds | edit whitelist members => exact List.append_nil _

/-- What starts is running until it ends. -/
theorem running_act (host : Host) (config : BtConfig) (pool : Pool) (action : Action)
    (possible : pool.phase.allows action = true) :
    (pool.starting action ++ pool.running).Perm
      (pool.ending action ++ (pool.act host config action).running) := by
  have replaced {index : Nat} {old : Thread} (found : pool.threads[index]? = some old)
      (new : Thread) := filterMap_set_perm (fun thread => thread.running.map Prod.fst) found new
  rw [act, if_pos possible]
  cases action with
  | take index =>
      cases found : pool.threads[index]? with
      | none => simp [starting, ending, advance, found]
      | some thread =>
          obtain ⟨slot, running⟩ := thread
          cases running with
          | none =>
              cases queued : pool.queue with
              | nil => simp [starting, ending, advance, found, queued]
              | cons job rest =>
                  simp only [starting, ending, advance, found, queued]
                  exact (replaced found
                    ⟨slot, some (job, btRequestProcessor host config job.params)⟩).symm
          | some running => simp [starting, ending, advance, found]
  | step index choice =>
      simp only [starting, ending, advance, List.nil_append]
      cases found : pool.threads[index]? with
      | none => exact .refl _
      | some thread =>
          obtain ⟨slot, running⟩ := thread
          cases running with
          | none => exact .refl _
          | some running =>
              obtain ⟨job, program⟩ := running
              cases program with
              | done result => exact (replaced found ⟨slot, none⟩).symm
              | fault reason => exact .refl _
              | call op next =>
                  have same := (replaced found ⟨(World.exec op (pool.world slot choice)).2.slot,
                    some (job, next (World.exec op (pool.world slot choice)).1)⟩).symm
                  exact (List.perm_cons job).mp same
  | spawn =>
      simp only [starting, ending, advance, running, List.filterMap_append]
      exact .of_eq (List.append_nil _).symm
  | terminate =>
      simp only [starting, ending, advance, onSigterm, List.nil_append]
      split <;> exact .refl _
  | leave =>
      simp only [starting, ending, advance, leave, List.nil_append]
      split <;> exact .refl _
  | receive sender data | wait seconds | edit whitelist members => exact .refl _

/-- Every datagram is queued, running or done with, and they are started in the
order in which they arrived. -/
structure Conserved (host : Host) (config : BtConfig) (schedule : List Action) (pool : Pool) :
    Prop where
  inOrder : jobs host config arriving schedule = jobs host config starting schedule ++ pool.queue
  kept : (jobs host config starting schedule).Perm
    (jobs host config ending schedule ++ pool.running)

theorem Reached.conserved (reached : Reached host config permits schedule pool) :
    pool.Conserved host config schedule := by
  induction reached with
  | start => exact ⟨rfl, .refl _⟩
  | @act schedule pool reached action possible permitted ih =>
      have queued := pool.queue_act host config action possible
      have ran := pool.running_act host config action possible
      constructor
      · rw [jobs, jobs, ih.inOrder, ← reached.eq_replay, List.append_assoc, queued,
          List.append_assoc]
      · rw [jobs, jobs, ← reached.eq_replay, List.append_assoc]
        apply (ih.kept.append_right _).trans
        rw [List.append_assoc]
        exact (List.perm_append_comm.trans ran).append_left _

/-! ## Nothing is done twice -/

section Accounts

variable {special : Op → Prop} [DecidablePred special]

omit [DecidablePred special] in
theorem mayPerform_running {kind : Datagram → Bool} {slot : Option Context} {job : Datagram}
    {program : Worker Unit} :
    Thread.MayPerform special kind ⟨slot, some (job, program)⟩ ↔
      kind job = true ∧ MayPerform special program := by
  constructor
  · rintro ⟨_, _, runs, ofKind, may⟩
    cases runs
    exact ⟨ofKind, may⟩
  · rintro ⟨ofKind, may⟩
    exact ⟨job, program, rfl, ofKind, may⟩

omit [DecidablePred special] in
theorem not_mayPerform_idle {kind : Datagram → Bool} {slot : Option Context} :
    ¬Thread.MayPerform special kind ⟨slot, none⟩ := by
  rintro ⟨_, _, runs, _⟩
  cases runs

open scoped Classical in
/-- Performing an operation uses up the permission to perform it. -/
theorem mayPerform_step (kind : Datagram → Bool) (slot next : Option Context) (job : Datagram)
    {op : Op} {rest : op.Answer → Worker Unit} (once : AtMostOnce special (.call op rest))
    (answer : op.Answer) :
    (kind job && decide (special op)).toNat +
        (decide (Thread.MayPerform special kind ⟨next, some (job, rest answer)⟩)).toNat ≤
      (decide (Thread.MayPerform special kind ⟨slot, some (job, .call op rest)⟩)).toNat := by
  simp only [mayPerform_running]
  cases ofKind : kind job with
  | false => simp
  | true =>
      by_cases ofSort : special op
      · have now : MayPerform special (.call op rest) := .inl ofSort
        have spent := (once answer).1 ofSort
        simp [ofSort, now, spent]
      · by_cases later : MayPerform special (rest answer)
        · have before : MayPerform special (.call op rest) := .inr ⟨answer, later⟩
          simp [ofSort, before, later]
        · simp [ofSort, later]

/-- What an action performs, and what may still come, was allowed before or comes
with the job that starts. -/
theorem performed_act (host : Host) (config : BtConfig)
    (programs : pool.Programs fun _ => AtMostOnce special) (kind : Datagram → Bool)
    (action : Action) :
    (pool.act host config action).performed special kind +
        (pool.act host config action).pending special kind ≤
      pool.performed special kind + pool.pending special kind +
        (pool.starting action).countP kind := by
  have changes := pool.changes_act host config action
  generalize pool.act host config action = after at changes ⊢
  cases changes with
  | receive sender data serving | wait seconds | edit whitelist members | turns action phase =>
      exact Nat.le_add_right ..
  | spawn =>
      apply Nat.le_of_eq
      simp [performed, pending, starting, not_mayPerform_idle]
  | take serving idle queued =>
      rename_i index slot job rest
      classical
      have threads := countP_set_add
        (fun thread => decide (Thread.MayPerform special kind thread)) idle
        ⟨slot, some (job, btRequestProcessor host config job.params)⟩
      have started : (decide (Thread.MayPerform special kind
          ⟨slot, some (job, btRequestProcessor host config job.params)⟩)).toNat ≤
            (kind job).toNat := by
        cases ofKind : kind job with
        | false => simp [mayPerform_running, ofKind]
        | true => exact Bool.toNat_le _
      simp only [not_mayPerform_idle, decide_false, Bool.toNat_false] at threads
      simp only [performed, pending, starting, idle, queued, countP_cons_add, List.countP_nil]
      omega
  | finish choice ends =>
      rename_i index slot job result
      classical
      have threads := countP_set_add
        (fun thread => decide (Thread.MayPerform special kind thread)) ends ⟨slot, none⟩
      simp only [not_mayPerform_idle, decide_false, Bool.toNat_false] at threads
      simp only [performed, pending, starting, List.countP_nil]
      omega
  | perform choice calls =>
      rename_i index slot job op next
      classical
      have threads := countP_set_add
        (fun thread => decide (Thread.MayPerform special kind thread)) calls
        ⟨(World.exec op (pool.world slot choice)).2.slot,
          some (job, next (World.exec op (pool.world slot choice)).1)⟩
      have step := mayPerform_step kind slot
        (World.exec op (pool.world slot choice)).2.slot job (programs.at_index calls)
        (World.exec op (pool.world slot choice)).1
      simp only [performed, pending, starting, Pool.perform, countP_cons_add, List.countP_nil]
      omega

/-- Along every schedule, what was performed for the jobs of a kind is at most one
operation for each of them. -/
theorem Reached.performed_le (reached : Reached host config permits schedule pool)
    (once : ∀ params, AtMostOnce special (btRequestProcessor host config params))
    (kind : Datagram → Bool) :
    pool.performed special kind + pool.pending special kind ≤
      (jobs host config starting schedule).countP kind := by
  induction reached with
  | start => exact Nat.le_refl 0
  | @act schedule pool reached action possible permitted ih =>
      have programs : pool.Programs fun _ => AtMostOnce special :=
        reached.programs (fun job => once job.params) fun _ _ _ answer once => (once answer).2
      have step := performed_act host config programs kind action
      rw [jobs, List.countP_append, ← reached.eq_replay]
      omega

end Accounts

/-! ## Every schedule -/

/-- Everything that was sent so far is short. -/
theorem Reached.brief (reached : Reached host config permits schedule pool) :
    ∀ performed ∈ pool.log, ∀ response ∈ performed.sent,
      response.2.length ≤ responseLimit config := by
  induction reached with
  | start => nofun
  | @act schedule pool reached action possible permitted ih =>
      have programs : pool.Programs fun _ => Performs (Op.Brief config) (fun _ => True) :=
        reached.programs (fun job => btRequestProcessor_brief host config job.params)
          fun _ _ _ answer performs => performs.2 answer
      have changes := pool.changes_act host config action
      generalize pool.act host config action = after at changes ⊢
      cases changes with
      | perform choice calls =>
          rename_i index slot job op next
          intro performed member response sent
          rcases List.mem_cons.mp member with rfl | earlier
          · have brief : op.Brief config := (programs.at_index calls).1
            cases op with
            | sendto address data =>
                cases List.mem_singleton.mp sent
                exact brief
            | _ => cases sent
          · exact ih performed earlier response sent
      | receive sender data serving | spawn | take serving idle queued | finish choice ends | wait seconds
      | edit whitelist members | turns action phase => exact ih

/-- Datagrams are handed to the threads in the order in which they arrived, each of
them once, and every one that was handed out is running or done with.  For the
datagrams of any kind there are at most as many responses, and at most as many
decisions about the database, as were handed out, and no response is longer than
the configuration allows. -/
theorem Reached.delivers (reached : Reached host config permits schedule pool) :
    pool.Conserved host config schedule ∧
    (∀ kind, pool.performed Op.Responds kind ≤ (jobs host config starting schedule).countP kind ∧
      pool.performed Op.Decides kind ≤ (jobs host config starting schedule).countP kind) ∧
    ∀ performed ∈ pool.log, ∀ response ∈ performed.sent,
      response.2.length ≤ responseLimit config := by
  refine ⟨reached.conserved, fun kind => ⟨?_, ?_⟩, reached.brief⟩
  · have bounded := reached.performed_le (btRequestProcessor_responds host config) kind
    exact Nat.le_trans (Nat.le_add_right ..) bounded
  · have bounded := reached.performed_le (btRequestProcessor_decides host config) kind
    exact Nat.le_trans (Nat.le_add_right ..) bounded

/-- Two connects that arrive one after the other, the first of which is answered. -/
def twoConnects : List Action :=
  [.spawn, .receive ⟨1, 1⟩ (BtReq.datagram ⟨btProtocolId, 0, 5⟩),
    .receive ⟨2, 2⟩ (BtReq.datagram ⟨btProtocolId, 0, 6⟩), .take 0] ++
    List.replicate 20 (.step 0 .calm)

theorem delivers_twoConnects :
    (start.run .little .shipped twoConnects).performed Op.Responds (fun _ => true) = 1 ∧
    (start.run .little .shipped twoConnects).queue.length = 1 ∧
    (start.run .little .shipped twoConnects).Conserved .little .shipped twoConnects.reverse := by
  have reached : Reached .little .shipped (fun _ _ _ => True) (twoConnects.reverse ++ [])
      (start.run .little .shipped twoConnects) := Reached.run .start twoConnects (by decide +kernel) fun _ _ => trivial
  rw [List.append_nil] at reached
  exact ⟨by decide +kernel, by decide +kernel, reached.delivers.1⟩

end Pool

end BtTracker
