import BtTracker.Foundation.Program

/-!
# Programs in an environment that is not fixed

An environment relates a state, an operation and an answer to the states that
may follow.  It may give several answers, and it may change the state on its own
before it answers, so the same notion covers unreliable services and
interference by others.  `Runs` says how a program may end, `Ensures` is the
weakest precondition that all of its runs end well, and both agree.
-/

namespace BtTracker.Foundation

/-- How the operations of a program may be answered, and the states that may
follow. -/
abbrev Environment (Op : Type) (Answer : Op → Type) (σ : Type) : Type :=
  σ → (op : Op) → Answer op → σ → Prop

namespace Program

variable {Op : Type} {Answer : Op → Type} {Fault : Type} {α β σ : Type}

/-- How a program may end in an environment, and in which state. -/
inductive Runs (environment : Environment Op Answer σ) :
    Program Op Answer Fault α → σ → Except Fault α → σ → Prop where
  | done (result : α) (state : σ) : Runs environment (.done result) state (.ok result) state
  | fault (reason : Fault) (state : σ) :
      Runs environment (.fault reason) state (.error reason) state
  | call {op : Op} {next : Answer op → Program Op Answer Fault α} {answer : Answer op}
      {state middle last : σ} {outcome : Except Fault α}
      (answered : environment state op answer middle)
      (rest : Runs environment (next answer) middle outcome last) :
      Runs environment (.call op next) state outcome last

/-- Whatever the environment does, the program ends in a way that satisfies the
postcondition. -/
def Ensures (environment : Environment Op Answer σ) (post : Except Fault α → σ → Prop) :
    Program Op Answer Fault α → σ → Prop
  | .done result, state => post (.ok result) state
  | .fault reason, state => post (.error reason) state
  | .call op next, state => ∀ answer middle, environment state op answer middle →
      Ensures environment post (next answer) middle

variable {environment : Environment Op Answer σ} {post : Except Fault α → σ → Prop}

namespace Ensures

theorem runs {program : Program Op Answer Fault α} {state last : σ} {outcome : Except Fault α}
    (ensures : Ensures environment post program state)
    (ran : Runs environment program state outcome last) : post outcome last := by
  induction ran with
  | done result state => exact ensures
  | fault reason state => exact ensures
  | call answered rest ih => exact ih (ensures _ _ answered)

theorem of_runs {program : Program Op Answer Fault α} {state : σ}
    (all : ∀ outcome last, Runs environment program state outcome last → post outcome last) :
    Ensures environment post program state := by
  induction program generalizing state with
  | done result => exact all _ _ (.done result state)
  | fault reason => exact all _ _ (.fault reason state)
  | call op next ih =>
      intro answer middle answered
      exact ih answer fun outcome last ran => all outcome last (.call answered ran)

theorem mono {weaker : Except Fault α → σ → Prop} {program : Program Op Answer Fault α}
    {state : σ} (ensures : Ensures environment post program state)
    (implies : ∀ outcome last, post outcome last → weaker outcome last) :
    Ensures environment weaker program state :=
  of_runs fun outcome last ran => implies outcome last (ensures.runs ran)

/-- Two things that are both ensured. -/
theorem both {other : Except Fault α → σ → Prop} {program : Program Op Answer Fault α}
    {state : σ} (ensures : Ensures environment post program state)
    (moreover : Ensures environment other program state) :
    Ensures environment (fun outcome last => post outcome last ∧ other outcome last)
      program state :=
  of_runs fun _ _ ran => ⟨ensures.runs ran, moreover.runs ran⟩

/-- Sequencing: a fault of the first part is a fault of the whole. -/
theorem bind {first : Except Fault α → σ → Prop} {post : Except Fault β → σ → Prop}
    {program : Program Op Answer Fault α} {rest : α → Program Op Answer Fault β} {state : σ}
    (ensures : Ensures environment first program state)
    (continues : ∀ result last, first (.ok result) last →
      Ensures environment post (rest result) last)
    (fails : ∀ reason last, first (.error reason) last → post (.error reason) last) :
    Ensures environment post (program >>= rest) state := by
  induction program generalizing state with
  | done result => exact continues result state ensures
  | fault reason => exact fails reason state ensures
  | call op next ih => exact fun answer middle answered => ih answer (ensures answer middle answered)

theorem perform {op : Op} {post : Except Fault (Answer op) → σ → Prop} {state : σ}
    (answers : ∀ answer last, environment state op answer last → post (.ok answer) last) :
    Ensures environment post (Program.perform op) state :=
  answers

theorem ofOption {reason : Fault} {value : Option α} {state : σ}
    (present : ∀ result, value = some result → post (.ok result) state)
    (missing : value = none → post (.error reason) state) :
    Ensures environment post (Program.ofOption reason value) state := by
  cases value with
  | none => exact missing rfl
  | some result => exact present result rfl

end Ensures

/-- An invariant of the operations a program performs holds wherever it ends, and
a fault is a tolerated one. -/
theorem Performs.ensures {allowed : Op → Prop} {tolerated : Fault → Prop}
    {program : Program Op Answer Fault α} (performs : Performs allowed tolerated program)
    {invariant : σ → Prop}
    (step : ∀ state op answer last, allowed op → invariant state →
      environment state op answer last → invariant last)
    {state : σ} (holds : invariant state) :
    Ensures environment (fun outcome last => invariant last ∧
      ∀ reason, outcome = .error reason → tolerated reason) program state := by
  induction program generalizing state with
  | done result => exact ⟨holds, fun _ equal => nomatch equal⟩
  | fault reason =>
      refine ⟨holds, fun other equal => ?_⟩
      cases equal
      exact performs
  | call op next ih =>
      intro answer middle answered
      exact ih answer (performs.2 answer) (step state op answer middle performs.1 holds answered)

/-- After a fault-free part, only what follows matters. -/
theorem FaultFree.ensures_bind {post : Except Fault β → σ → Prop}
    {program : Program Op Answer Fault α} (faultFree : program.FaultFree)
    {rest : α → Program Op Answer Fault β}
    (continues : ∀ result last, Ensures environment post (rest result) last) (state : σ) :
    Ensures environment post (program >>= rest) state := by
  induction program generalizing state with
  | done result => exact continues result state
  | fault reason => exact faultFree.elim
  | call op next ih =>
      intro answer middle answered
      exact ih answer (faultFree answer) middle

/-- A handler is an environment with one answer to every operation. -/
theorem runs_run (handler : (op : Op) → σ → Answer op × σ) {environment : Environment Op Answer σ}
    (answers : ∀ op state, environment state op (handler op state).1 (handler op state).2)
    (program : Program Op Answer Fault α) (state : σ) :
    Runs environment program state (run handler program state).1 (run handler program state).2 := by
  induction program generalizing state with
  | done result => exact .done result state
  | fault reason => exact .fault reason state
  | call op next ih => exact .call (answers op state) (ih _ _)

/-- Where the environment leaves no choice, a run is the run of the handler. -/
theorem Performs.run_eq {allowed : Op → Prop} {tolerated : Fault → Prop}
    {handler : (op : Op) → σ → Answer op × σ} {program : Program Op Answer Fault α}
    (performs : Performs allowed tolerated program)
    (answers : ∀ state op answer last, allowed op → environment state op answer last →
      handler op state = (answer, last))
    {state last : σ} {outcome : Except Fault α}
    (ran : Runs environment program state outcome last) :
    run handler program state = (outcome, last) := by
  induction ran with
  | done result state => rfl
  | fault reason state => rfl
  | call answered rest ih =>
      rw [run_call, answers _ _ _ _ performs.1 answered]
      exact ih (performs.2 _)

end Program

end BtTracker.Foundation
