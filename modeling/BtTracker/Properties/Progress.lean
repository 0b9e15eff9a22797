import BtTracker.Correctness.Effort
import BtTracker.Correctness.Threads

/-!
# Progress of the threads

Threads share the database and nothing else they could wait for.  So a thread that
is scheduled often enough is done with its job, or has crashed, whatever the other
threads and the receive loop do in the meantime.
-/

namespace BtTracker

open BtTracker.Foundation
open BtTracker.Foundation.Program (EndsWithin)

variable {host : Host} {config : BtConfig}

/-- The thread has no job, or its job ran into undefined behaviour. -/
def Thread.Settled (thread : Thread) : Prop :=
  thread.running = none ∨ ∃ job reason, thread.running = some (job, .fault reason)

/-- An operation of the given thread. -/
def Action.isStep (index : Nat) : Action → Bool
  | .step other _ => decide (other = index)
  | _ => false

namespace Pool

variable {pool : Pool} {index : Nat}

/-- A job is left alone by everything but the operations of its own thread. -/
theorem threads_act_of_not_isStep {slot : Option Context} {running : Datagram × Worker Unit}
    (runs : pool.threads[index]? = some ⟨slot, some running⟩) {action : Action}
    (other : action.isStep index = false) :
    (pool.act host config action).threads[index]? = some ⟨slot, some running⟩ := by
  have inside : index < pool.threads.length := (List.getElem?_eq_some_iff.mp runs).1
  have replaced {position : Nat} {old : Thread} (found : pool.threads[position]? = some old)
      (different : old ≠ ⟨slot, some running⟩ ∨ position ≠ index) (new : Thread) :
      (pool.threads.set position new)[index]? = some ⟨slot, some running⟩ := by
    have elsewhere : position ≠ index := by
      rcases different with different | elsewhere
      · rintro rfl
        exact different (Option.some.inj (found.symm.trans runs))
      · exact elsewhere
    rw [List.getElem?_set_ne elsewhere, runs]
  have changes := pool.changes_act host config action
  generalize pool.act host config action = after at changes ⊢
  cases changes with
  | spawn => exact (List.getElem?_append_left inside).trans runs
  | take serving idle queued =>
      apply replaced idle
      left
      intro same
      cases same
  | perform choice calls | finish choice calls =>
      apply replaced calls
      right
      simpa [Action.isStep] using other
  | receive sender data serving | wait seconds | edit whitelist members | turns action phase =>
      exact runs

/-- The measure of a job is the number of operations it may still perform. -/
theorem settles_of_endsWithin {slot : Option Context} {job : Datagram} {program : Worker Unit}
    {limit : Nat} (runs : pool.threads[index]? = some ⟨slot, some (job, program)⟩)
    (within : EndsWithin limit program) {actions : List Action}
    (possible : pool.possible host config actions = true)
    (enough : limit < actions.countP (Action.isStep index)) :
    ∃ before rest, actions = before ++ rest ∧ ∃ thread,
      (pool.run host config before).threads[index]? = some thread ∧ thread.Settled := by
  induction actions generalizing pool slot program limit with
  | nil => exact absurd enough (Nat.not_lt_zero limit)
  | cons action actions ih =>
      obtain ⟨now, later⟩ := Bool.and_eq_true_iff.mp possible
      -- The job of the thread after this action, with what is left of its budget.
      have continues {slot : Option Context} {program : Worker Unit} {limit : Nat}
          (runs : (pool.act host config action).threads[index]? =
            some ⟨slot, some (job, program)⟩)
          (within : EndsWithin limit program)
          (enough : limit < actions.countP (Action.isStep index)) :
          ∃ before rest, action :: actions = before ++ rest ∧ ∃ thread,
            (pool.run host config before).threads[index]? = some thread ∧ thread.Settled := by
        obtain ⟨before, rest, rfl, settled⟩ := ih runs within later enough
        exact ⟨action :: before, rest, rfl, settled⟩
      cases own : action.isStep index with
      | false =>
          rw [List.countP_cons_of_neg (by simp [own])] at enough
          exact continues (threads_act_of_not_isStep runs own) within enough
      | true =>
          rw [List.countP_cons_of_pos own] at enough
          have inside : index < pool.threads.length := (List.getElem?_eq_some_iff.mp runs).1
          cases action with
          | step position choice =>
              have same : position = index := of_decide_eq_true own
              subst same
              cases program with
              | done result =>
                  refine ⟨[.step position choice], actions, rfl, ⟨slot, none⟩, ?_, .inl rfl⟩
                  simp [run, act, now, advance, runs, List.getElem?_set_self inside]
              | fault reason =>
                  exact ⟨[], _, rfl, _, runs, .inr ⟨job, reason, rfl⟩⟩
              | call op next =>
                  cases limit with
                  | zero => exact within.elim
                  | succ limit =>
                      apply continues _ (within (World.exec op (pool.world slot choice)).1)
                        (Nat.lt_of_succ_lt_succ enough)
                      · exact (World.exec op (pool.world slot choice)).2.slot
                      · simp [act, now, advance, runs, Pool.perform,
                          List.getElem?_set_self inside]
          | _ => cases own

/-- A thread that performs more than `jobLimit` steps is without a job at some point,
or has crashed, from whatever state it started and however its operations are
interleaved with those of others. -/
theorem Reached.settles {permits : List Action → Pool → Action → Prop} {schedule : List Action}
    (reached : Reached host config permits schedule pool) {thread : Thread}
    (present : pool.threads[index]? = some thread) {actions : List Action}
    (possible : pool.possible host config actions = true)
    (enough : jobLimit config < actions.countP (Action.isStep index)) :
    ∃ before rest, actions = before ++ rest ∧ ∃ thread,
      (pool.run host config before).threads[index]? = some thread ∧ thread.Settled := by
  have programs : pool.Programs fun _ => EndsWithin (jobLimit config) := by
    apply reached.programs (fun job => btRequestProcessor_within host config job.params)
    intro job op next answer within
    exact EndsWithin.mono (within answer) (Nat.le_succ _)
  obtain ⟨slot, running⟩ := thread
  cases running with
  | none => exact ⟨[], actions, rfl, _, present, .inl rfl⟩
  | some running =>
      obtain ⟨job, program⟩ := running
      exact settles_of_endsWithin present (programs.at_index present) possible enough

/-- Two threads with a job each. -/
def twoThreads : List Action :=
  [.spawn, .spawn, .receive ⟨1, 1⟩ (BtReq.datagram ⟨btProtocolId, 0, 5⟩),
    .receive ⟨2, 2⟩ (BtAnnounceReq.sample 0 2).datagram, .take 0, .take 1]

/-- The operations of both threads in turn. -/
def takingTurns : List Action :=
  (List.replicate 360 [Action.step 1 .calm, .step 0 .calm]).flatten

theorem settles_takingTurns :
    ∃ before rest, takingTurns = before ++ rest ∧ ∃ thread,
      ((start.run .little .shipped twoThreads).run .little .shipped before).threads[0]? =
        some thread ∧ thread.Settled := by
  have reached : Reached .little .shipped (fun _ _ _ => True) (twoThreads.reverse ++ [])
      (start.run .little .shipped twoThreads) :=
    Reached.run .start twoThreads (by decide +kernel) fun _ _ => trivial
  obtain ⟨thread, present⟩ : ∃ thread,
      (start.run .little .shipped twoThreads).threads[0]? = some thread := ⟨_, rfl⟩
  exact reached.settles present (by decide +kernel) (by decide +kernel)

end Pool

end BtTracker
