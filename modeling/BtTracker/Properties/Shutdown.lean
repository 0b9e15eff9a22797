import BtTracker.Properties.Delivery
import BtTracker.Properties.Linearization
import BtTracker.Properties.Progress

/-!
# Shutting down

On `SIGINT` and `SIGTERM` the tracker stops receiving and frees the thread pool: no
thread takes another job, those that run one finish it, and the jobs in the queue
are dropped.  When the last thread is idle the process ends.  A thread that crashes in
the meantime ends it at once, whatever the others are doing.
-/

namespace BtTracker

open BtTracker.Foundation BtTracker.Specification
open BtTracker.Foundation.Program (EndsWithin)

namespace Pool

/-- No thread has a job. -/
def Idle (pool : Pool) : Prop := ∀ thread ∈ pool.threads, thread.running = none

/-- A thread has run into a fault. -/
def CrashedAt (pool : Pool) (index : Nat) : Prop :=
  ∃ slot job reason, pool.threads[index]? = some ⟨slot, some (job, .fault reason)⟩

/-- What may have become of a pool after a signal: nothing is received and no job is
started any more, the queue is dropped as it is, and the process ends when all threads
are idle or with a crash. -/
structure Closes (pool last : Pool) : Prop where
  gone : last.phase ≠ .serving
  dropped : last.queue = pool.queue
  threads : last.threads.length = pool.threads.length
  running : last.running ⊆ pool.running
  done : ∀ performed ∈ last.log, performed ∈ pool.log ∨ performed.job ∈ pool.running
  ends : last.phase = .ended → last.Idle ∨ ∃ index, last.CrashedAt index

variable {host : Host} {config : BtConfig} {pool middle : Pool} {action : Action}
  {permits : List Action → Pool → Action → Prop} {schedule actions : List Action}

/-- Whatever restricts the schedules, they are schedules. -/
theorem Reached.unrestricted (reached : Reached host config permits schedule pool) :
    Reached host config (fun _ _ _ => True) schedule pool := by
  induction reached with
  | start => exact .start
  | act reached action possible permitted ih => exact ih.act action possible trivial

/-! ## One action -/

variable (host config) in
/-- There is no way back into the receive loop. -/
theorem phase_act (gone : pool.phase ≠ .serving) (action : Action) :
    (pool.act host config action).phase ≠ .serving := by
  rw [act]
  split
  · cases action with
    | terminate =>
        rw [advance, onSigterm]
        split <;> exact Phase.noConfusion
    | leave =>
        rw [advance, leave]
        split
        · exact Phase.noConfusion
        · exact gone
    | take index =>
        rw [advance]
        split <;> exact gone
    | step index choice =>
        rw [advance]
        split
        · exact gone
        · exact gone
        · exact Phase.noConfusion
        · exact gone
    | receive _ _ | spawn | wait _ | edit _ _ => exact gone
  · exact gone

variable (host config) in
/-- A thread without a job stays without one, and a crashed one stays crashed. -/
theorem settled_act (gone : pool.phase ≠ .serving) {index : Nat} {thread : Thread}
    (found : pool.threads[index]? = some thread) (settled : thread.Settled) :
    (pool.act host config action).threads[index]? = some thread := by
  have replaced {position : Nat} {old new : Thread} (there : pool.threads[position]? = some old)
      (busy : ¬old.Settled) : (pool.threads.set position new)[index]? = some thread := by
    have elsewhere : position ≠ index := by
      intro same
      subst same
      rw [found] at there
      cases there
      exact busy settled
    rw [List.getElem?_set_ne elsewhere, found]
  have changes := pool.changes_act host config action
  generalize pool.act host config action = after at changes ⊢
  cases changes with
  | receive _ _ serving | spawn serving | take serving => exact absurd serving gone
  | perform choice calls =>
      apply replaced calls
      intro settled
      rcases settled with idle | ⟨_, _, crashed⟩
      · cases idle
      · cases crashed
  | finish choice ends =>
      apply replaced ends
      intro settled
      rcases settled with idle | ⟨_, _, crashed⟩
      · cases idle
      · cases crashed
  | wait seconds | edit whitelist members | turns action phase => exact found

/-- The process ends with a crash or when all threads are idle. -/
theorem Closes.ends_act (closes : pool.Closes middle)
    (possible : middle.phase.allows action = true) (once : action ≠ .terminate)
    (ended : (middle.act host config action).phase = .ended) :
    (middle.act host config action).Idle ∨
      ∃ index, (middle.act host config action).CrashedAt index := by
  have closing (busy : Phase.allows .ended action = false) : middle.phase ≠ .ended := by
    intro gone
    rw [gone, busy] at possible
    cases possible
  have refused (serves : Phase.allows .closing action = false) (idles : Phase.allows .ended action =
      false) : False := by
    cases phase : middle.phase with
    | serving => exact closes.gone phase
    | closing | ended =>
        rw [phase] at possible
        simp [serves, idles] at possible
  rw [act, if_pos possible] at ended ⊢
  cases action with
  | receive sender data | spawn | take index => exact (refused rfl rfl).elim
  | step index choice =>
      rw [advance] at ended ⊢
      split at ended
      · exact absurd ended (closing rfl)
      · exact absurd ended (closing rfl)
      · rename_i slot job reason crashed
        exact .inr ⟨index, slot, job, reason, crashed⟩
      · exact absurd ended (closing rfl)
  | terminate => exact absurd rfl once
  | leave =>
      rw [advance, leave] at ended ⊢
      split at ended
      · rename_i idle
        rw [if_pos idle]
        left
        intro thread member
        exact Option.isNone_iff_eq_none.mp (List.all_eq_true.mp idle thread member)
      · exact absurd ended (closing rfl)
  | wait seconds | edit whitelist members => exact closes.ends ended

variable (host config pool) in
/-- The queue and the number of threads are frozen, no other jobs are run, and what
is done is done for a job that was running. -/
theorem frozen_act (gone : pool.phase ≠ .serving) (action : Action) :
    (pool.act host config action).queue = pool.queue ∧
    (pool.act host config action).threads.length = pool.threads.length ∧
    (pool.act host config action).running ⊆ pool.running ∧
    ∀ performed ∈ (pool.act host config action).log,
      performed ∈ pool.log ∨ performed.job ∈ pool.running := by
  have replaced {index : Nat} {slot : Option Context} {running : Option (Datagram × Worker Unit)}
      (known : ∀ job program, running = some (job, program) → job ∈ pool.running) :
      (pool.threads.set index ⟨slot, running⟩).filterMap
        (fun thread => thread.running.map Prod.fst) ⊆ pool.running := by
    intro job member
    rcases mem_running_set member with before | ⟨program, started⟩
    · exact before
    · exact known job program started
  have changes := pool.changes_act host config action
  generalize pool.act host config action = after at changes ⊢
  cases changes with
  | receive _ _ serving | spawn serving | take serving => exact absurd serving gone
  | perform choice calls =>
      refine ⟨rfl, List.length_set, replaced ?_, ?_⟩
      · intro job program same
        cases same
        exact mem_running calls
      · intro performed member
        rcases List.mem_cons.mp member with rfl | earlier
        · exact .inr (mem_running calls)
        · exact .inl earlier
  | finish choice ends => exact ⟨rfl, List.length_set, replaced nofun, fun _ => .inl⟩
  | wait seconds | edit whitelist members | turns action phase =>
      exact ⟨rfl, rfl, List.Subset.refl _, fun _ => .inl⟩

theorem Closes.act (closes : pool.Closes middle) (possible : middle.phase.allows action = true)
    (once : action ≠ .terminate) : pool.Closes (middle.act host config action) := by
  obtain ⟨queue, length, running, log⟩ := frozen_act host config middle closes.gone action
  constructor
  · exact phase_act host config closes.gone action
  · exact queue.trans closes.dropped
  · exact length.trans closes.threads
  · exact List.Subset.trans running closes.running
  · intro performed member
    rcases log performed member with earlier | during
    · exact closes.done performed earlier
    · exact .inr (closes.running during)
  · exact closes.ends_act possible once

/-! ## All of them -/

/-- The signal. -/
theorem Closes.terminate (serving : pool.phase = .serving) :
    pool.Closes (pool.act host config .terminate) := by
  have other : Action.terminate ≠ .leave := Action.noConfusion
  rw [act_of_serving host config serving other, advance, onSigterm, serving]
  exact {
    gone := Phase.noConfusion
    dropped := rfl
    threads := rfl
    running := List.Subset.refl _
    done := fun _ => .inl
    ends := Phase.noConfusion }

theorem Closes.run (closes : pool.Closes middle)
    (possible : middle.possible host config actions = true) (once : .terminate ∉ actions) :
    pool.Closes (middle.run host config actions) := by
  induction actions generalizing middle with
  | nil => exact closes
  | cons action actions ih =>
      obtain ⟨now, later⟩ := Bool.and_eq_true_iff.mp possible
      obtain ⟨other, others⟩ := not_or.mp (mt List.mem_cons.mpr once)
      exact ih (closes.act now (Ne.symm other)) later others

theorem settled_run (gone : pool.phase ≠ .serving) {index : Nat} {thread : Thread}
    (found : pool.threads[index]? = some thread) (settled : thread.Settled) :
    (pool.run host config actions).threads[index]? = some thread := by
  induction actions generalizing pool with
  | nil => exact found
  | cons action actions ih =>
      exact ih (phase_act host config gone action) (settled_act host config gone found settled)

theorem phase_run (gone : pool.phase ≠ .serving) (actions : List Action) :
    (pool.run host config actions).phase ≠ .serving := by
  induction actions generalizing pool with
  | nil => exact gone
  | cons action actions ih => exact ih (phase_act host config gone action)

/-- A thread that gets its turn often enough is settled in the end. -/
theorem settled_of_closing (gone : pool.phase ≠ .serving)
    (reached : Reached host config permits schedule pool) {index : Nat} {thread : Thread}
    (present : pool.threads[index]? = some thread)
    (possible : pool.possible host config actions = true)
    (enough : jobLimit config < actions.countP (Action.isStep index)) :
    ∃ last, (pool.run host config actions).threads[index]? = some last ∧ last.Settled := by
  obtain ⟨before, rest, rfl, last, found, settled⟩ := reached.settles present possible enough
  rw [run, List.foldl_append]
  exact ⟨last, settled_run (phase_run gone before) found settled, settled⟩

/-- When every thread is settled, all of them are idle or one has crashed. -/
theorem idle_or_crashed (settled : ∀ thread ∈ pool.threads, thread.Settled) :
    pool.Idle ∨ ∃ index, pool.CrashedAt index := by
  by_cases idle : pool.Idle
  · exact .inl idle
  · right
    simp only [Idle, not_forall] at idle
    obtain ⟨thread, member, busy⟩ := idle
    obtain ⟨job, reason, crashed⟩ := (settled thread member).resolve_left busy
    obtain ⟨index, inside, same⟩ := List.getElem_of_mem member
    obtain ⟨slot, running⟩ := thread
    dsimp only at crashed
    subst crashed
    exact ⟨index, slot, job, reason, List.getElem?_eq_some_iff.mpr ⟨inside, same⟩⟩

/-- Nothing keeps `on_sigterm` waiting when all threads are idle. -/
theorem phase_leave_of_idle (gone : pool.phase ≠ .serving) (idle : pool.Idle) :
    (pool.act host config .leave).phase = .ended := by
  have all : pool.threads.all (·.running.isNone) = true := by
    rw [List.all_eq_true]
    intro thread member
    rw [idle thread member]
    rfl
  rw [act]
  cases phase : pool.phase with
  | serving => exact absurd phase gone
  | closing =>
      have allowed : Phase.allows .closing .leave = true := rfl
      rw [if_pos allowed, advance, leave, if_pos all]
  | ended =>
      have refused : Phase.allows .ended .leave = false := rfl
      rw [refused, if_neg Bool.false_ne_true]
      exact phase

/-- A crashed thread takes the process down with its next step. -/
theorem phase_step_of_crashed {index : Nat} (crashed : pool.CrashedAt index) (choice : Choice) :
    (pool.act host config (.step index choice)).phase = .ended := by
  obtain ⟨slot, job, reason, found⟩ := crashed
  by_cases ended : pool.phase = .ended
  · have refused : Phase.allows .ended (.step index choice) = false := rfl
    rw [act, ended, refused, if_neg Bool.false_ne_true]
    exact ended
  · rw [act_step host config ended, advance]
    simp only [found]

/-- An idle pool owes nothing. -/
theorem Idle.owes (idle : pool.Idle) :
    ∀ thread ∈ pool.threads, thread.owes (fun _ => true) = false := by
  intro thread member
  rw [Thread.owes, idle thread member]

/-- After a signal nothing is received and no job is started, and the jobs in the queue
are dropped without any effect.  Once the threads had their turns, all jobs that were
running have ended and the process is about to, unless one of them crashed, which ends
it just the same.  And if they all have ended while Redis answered, the database that is
left behind is exactly the state of a tracker, with no download between its two
commands. -/
theorem Reached.shutsDown (reached : Reached host config permits schedule pool)
    (serving : pool.phase = .serving)
    (possible : (pool.act host config .terminate).possible host config actions = true)
    (once : .terminate ∉ actions) :
    let last := (pool.act host config .terminate).run host config actions
    pool.Closes last ∧
    ((∀ index < pool.threads.length, jobLimit config < actions.countP (Action.isStep index)) →
      (last.Idle ∧ (last.act host config .leave).phase = .ended) ∨
      ∃ index, last.CrashedAt index ∧
        ∀ choice, (last.act host config (.step index choice)).phase = .ended) ∧
    (last.Idle → (∀ action ∈ actions.reverse ++ .terminate :: schedule, Answered action) →
      ∃ events, Linearizes host config (actions.reverse ++ .terminate :: schedule) last events ∧
        Represents host config (Tracker.initial.steps config.terms events)
          (Tracker.initial.steps config.terms events).downloads last.store) := by
  have closed : pool.Closes (pool.act host config .terminate) := .terminate serving
  have closes := closed.run possible once
  have signalled : pool.phase.allows .terminate = true := by
    rw [serving]
    rfl
  have began := reached.unrestricted.act .terminate signalled trivial
  have ended := began.run actions possible fun _ _ => trivial
  refine ⟨closes, fun enough => ?_, fun idle answered => ?_⟩
  · have settled : ∀ thread ∈ ((pool.act host config .terminate).run host config actions).threads,
        thread.Settled := by
      intro thread member
      obtain ⟨index, inside, rfl⟩ := List.getElem_of_mem member
      have before : index < pool.threads.length := closes.threads ▸ inside
      have present : index < (pool.act host config .terminate).threads.length :=
        closed.threads.symm ▸ before
      obtain ⟨last, found, settled⟩ := settled_of_closing closed.gone began
        (List.getElem?_eq_getElem present) possible (enough index before)
      rw [List.getElem?_eq_getElem inside] at found
      rw [Option.some.inj found]
      exact settled
    rcases idle_or_crashed settled with idle | ⟨index, crashed⟩
    · exact .inl ⟨idle, phase_leave_of_idle closes.gone idle⟩
    · exact .inr ⟨index, crashed, phase_step_of_crashed crashed⟩
  · obtain ⟨events, linearizes, tracks⟩ := ended.tracks
    obtain ⟨counters, represents, -, exactly⟩ := tracks.exists_counters
    rw [exactly answered idle.owes] at represents
    exact ⟨events, linearizes, represents⟩

/-- Two threads in the middle of their jobs and a third datagram in the queue when
the signal comes. -/
def interrupted : List Action :=
  twoThreads ++ [.receive ⟨3, 3⟩ (BtReq.datagram ⟨btProtocolId, 0, 7⟩), .step 0 .calm,
    .step 1 .calm]

/-- Both jobs are done and the third one is dropped. -/
theorem shutsDown_interrupted :
    let last := ((start.run .little .shipped interrupted).act .little .shipped .terminate).run
      .little .shipped takingTurns
    last.queue.length = 1 ∧ last.Idle ∧ (last.act .little .shipped .leave).phase = .ended ∧
      ∃ events, Represents .little .shipped (Tracker.initial.steps BtConfig.shipped.terms events)
        (Tracker.initial.steps BtConfig.shipped.terms events).downloads last.store := by
  have reached : Reached .little .shipped (fun _ _ _ => True) (interrupted.reverse ++ [])
      (start.run .little .shipped interrupted) :=
    Reached.run .start interrupted (by decide +kernel) fun _ _ => trivial
  have turns : ∀ action ∈ takingTurns, ∃ index, action = .step index .calm := by
    intro action member
    obtain ⟨turns, repeated, inside⟩ := List.mem_flatten.mp member
    rw [List.eq_of_mem_replicate repeated] at inside
    rcases List.mem_pair.mp inside with rfl | rfl
    · exact ⟨1, rfl⟩
    · exact ⟨0, rfl⟩
  have once : Action.terminate ∉ takingTurns := by
    intro member
    obtain ⟨index, same⟩ := turns _ member
    cases same
  have enough : ∀ index < (start.run .little .shipped interrupted).threads.length,
      jobLimit .shipped < takingTurns.countP (Action.isStep index) := by decide +kernel
  have answered : ∀ action ∈ takingTurns.reverse ++ .terminate :: (interrupted.reverse ++ []),
      Answered action := by
    intro action member index choice same
    subst same
    rcases List.mem_append.mp member with turn | earlier
    · obtain ⟨other, same⟩ := turns _ (List.mem_reverse.mp turn)
      cases same
      rfl
    · simp only [interrupted, twoThreads, List.reverse_cons, List.reverse_nil, List.nil_append,
        List.cons_append, List.mem_cons, reduceCtorEq, false_or, Action.step.injEq,
        List.not_mem_nil, or_false] at earlier
      rcases earlier with ⟨-, rfl⟩ | ⟨-, rfl⟩
      · rfl
      · rfl
  obtain ⟨closes, ends, exactly⟩ := reached.shutsDown (by decide +kernel) (by decide +kernel) once
  have length : (start.run .little .shipped interrupted).queue.length = 1 := by decide +kernel
  have finished : ∀ thread ∈ (((start.run .little .shipped interrupted).act .little .shipped
      .terminate).run .little .shipped takingTurns).threads, thread.running.isNone = true := by
    decide +kernel
  rcases ends enough with ⟨idle, ended⟩ | ⟨index, ⟨slot, job, reason, crashed⟩, -⟩
  · obtain ⟨events, -, represents⟩ := exactly idle answered
    exact ⟨(congrArg List.length closes.dropped).trans length, idle, ended, events, represents⟩
  · have nothing := finished _ (List.mem_of_getElem? crashed)
    cases nothing

end Pool

end BtTracker
