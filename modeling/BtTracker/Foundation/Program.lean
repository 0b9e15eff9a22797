import Mathlib.Tactic.Common

/-!
# Programs over an effect signature

A `Program` is the tree of everything sequential code may do: it either ends
with a result, runs into undefined behaviour, or performs one operation and
continues with whatever the environment answers.  The same tree can then be run
against a state, interleaved with other programs one operation at a time, or
checked against a protocol that every answer of the environment must respect.
-/

namespace BtTracker.Foundation

/-- Sequential code over operations `Op`, where the environment answers `op`
with a value of type `Answer op` and undefined behaviour is reported as a
`Fault`. -/
inductive Program (Op : Type) (Answer : Op → Type) (Fault : Type) (α : Type) : Type where
  | done (result : α)
  | fault (reason : Fault)
  | call (op : Op) (next : Answer op → Program Op Answer Fault α)

namespace Program

variable {Op : Type} {Answer : Op → Type} {Fault : Type} {α β γ : Type}

/-- Continue with the result of a program. -/
def bind : Program Op Answer Fault α → (α → Program Op Answer Fault β) →
    Program Op Answer Fault β
  | .done result, rest => rest result
  | .fault reason, _ => .fault reason
  | .call op next, rest => .call op fun answer => (next answer).bind rest

instance : Monad (Program Op Answer Fault) where
  pure := done
  bind := bind

/-- Perform a single operation and return its answer. -/
def perform (op : Op) : Program Op Answer Fault (Answer op) := .call op .done

/-- Turn a failed partial computation into a fault. -/
def ofOption (reason : Fault) : Option α → Program Op Answer Fault α
  | some value => .done value
  | none => .fault reason

@[simp] theorem pure_eq_done (result : α) :
    (pure result : Program Op Answer Fault α) = .done result := rfl

@[simp] theorem map_eq_bind (function : α → β) (program : Program Op Answer Fault α) :
    function <$> program = program >>= fun result => .done (function result) := rfl

@[simp] theorem done_bind (result : α) (rest : α → Program Op Answer Fault β) :
    (Program.done result >>= rest) = rest result := rfl

@[simp] theorem fault_bind (reason : Fault) (rest : α → Program Op Answer Fault β) :
    (Program.fault reason >>= rest) = .fault reason := rfl

@[simp] theorem call_bind (op : Op) (next : Answer op → Program Op Answer Fault α)
    (rest : α → Program Op Answer Fault β) :
    (Program.call op next >>= rest) = .call op fun answer => next answer >>= rest := rfl

@[simp] theorem perform_bind (op : Op) (rest : Answer op → Program Op Answer Fault β) :
    (perform op >>= rest) = .call op rest := rfl

@[simp] theorem ofOption_some (reason : Fault) (value : α) :
    (ofOption reason (some value) : Program Op Answer Fault α) = .done value := rfl

@[simp] theorem ofOption_none (reason : Fault) :
    (ofOption reason none : Program Op Answer Fault α) = .fault reason := rfl

theorem bind_assoc (program : Program Op Answer Fault α)
    (first : α → Program Op Answer Fault β) (second : β → Program Op Answer Fault γ) :
    (program >>= first) >>= second = program >>= fun result => first result >>= second := by
  induction program with
  | done result => rfl
  | fault reason => rfl
  | call op next ih =>
      simp only [call_bind]
      exact congrArg _ (funext ih)

/-! ## Running a program against a state -/

section Run

variable {σ : Type} (handler : (op : Op) → σ → Answer op × σ)

/-- Run a program to its end, the state answering every operation.  A fault
keeps the state reached so far. -/
def run : Program Op Answer Fault α → σ → Except Fault α × σ
  | .done result, state => (.ok result, state)
  | .fault reason, state => (.error reason, state)
  | .call op next, state => run (next (handler op state).1) (handler op state).2

@[simp] theorem run_done (result : α) (state : σ) :
    run handler (.done result : Program Op Answer Fault α) state = (.ok result, state) := rfl

@[simp] theorem run_fault (reason : Fault) (state : σ) :
    run handler (.fault reason : Program Op Answer Fault α) state =
      (.error reason, state) := rfl

@[simp] theorem run_call (op : Op) (next : Answer op → Program Op Answer Fault α)
    (state : σ) :
    run handler (.call op next) state =
      run handler (next (handler op state).1) (handler op state).2 := rfl

/-- Sequencing runs the second part from the state in which the first one
ended. -/
theorem run_bind (program : Program Op Answer Fault α)
    (rest : α → Program Op Answer Fault β) (state : σ) :
    run handler (program >>= rest) state =
      match run handler program state with
      | (.ok result, state) => run handler (rest result) state
      | (.error reason, state) => (.error reason, state) := by
  induction program generalizing state with
  | done result => rfl
  | fault reason => rfl
  | call op next ih => exact ih _ _

theorem run_bind_of_ok {program : Program Op Answer Fault α}
    {rest : α → Program Op Answer Fault β} {state next : σ} {result : α}
    (first : run handler program state = (.ok result, next)) :
    run handler (program >>= rest) state = run handler (rest result) next := by
  rw [run_bind, first]

theorem run_bind_of_error {program : Program Op Answer Fault α}
    {rest : α → Program Op Answer Fault β} {state next : σ} {reason : Fault}
    (first : run handler program state = (.error reason, next)) :
    run handler (program >>= rest) state = (.error reason, next) := by
  rw [run_bind, first]

end Run

/-! ## Absence of faults -/

/-- No answers of the environment lead the program into a fault. -/
def FaultFree : Program Op Answer Fault α → Prop
  | .done _ => True
  | .fault _ => False
  | .call _ next => ∀ answer, (next answer).FaultFree

namespace FaultFree

@[simp] theorem done (result : α) :
    (.done result : Program Op Answer Fault α).FaultFree := trivial

@[simp] theorem perform (op : Op) :
    (Program.perform op : Program Op Answer Fault (Answer op)).FaultFree := fun _ => trivial

theorem bind {program : Program Op Answer Fault α} {rest : α → Program Op Answer Fault β}
    (first : program.FaultFree) (second : ∀ result, (rest result).FaultFree) :
    (program >>= rest).FaultFree := by
  induction program with
  | done result => exact second result
  | fault reason => exact first.elim
  | call op next ih => exact fun answer => ih answer (first answer)

/-- A fault-free program returns a result from every state. -/
theorem run_ok {σ : Type} (handler : (op : Op) → σ → Answer op × σ)
    {program : Program Op Answer Fault α} (faultFree : program.FaultFree) (state : σ) :
    ∃ result, (run handler program state).1 = .ok result := by
  induction program generalizing state with
  | done result => exact ⟨result, rfl⟩
  | fault reason => exact faultFree.elim
  | call op next ih => exact ih _ (faultFree _) _

end FaultFree

/-! ## Protocols -/

/-- A protocol restricts the operations a program may perform and the faults it
may run into.  Its state summarizes the answers seen so far, so that what is
allowed next may depend on them. -/
structure Protocol (Op : Type) (Answer : Op → Type) (Fault : Type) (Phase : Type) where
  allows : Phase → Op → Prop
  next : Phase → (op : Op) → Answer op → Phase
  tolerates : Phase → Fault → Prop

section Follows

variable {Phase : Type} (protocol : Protocol Op Answer Fault Phase)

/-- Whatever the environment answers, the program performs only operations its
protocol allows, and it ends in a phase that satisfies the postcondition. -/
def Follows (post : α → Phase → Prop) : Phase → Program Op Answer Fault α → Prop
  | phase, .done result => post result phase
  | phase, .fault reason => protocol.tolerates phase reason
  | phase, .call op next =>
      protocol.allows phase op ∧
        ∀ answer, Follows post (protocol.next phase op answer) (next answer)

variable {protocol}

@[simp] theorem follows_done {post : α → Phase → Prop} {phase : Phase} {result : α} :
    Follows protocol post phase (.done result : Program Op Answer Fault α) ↔
      post result phase := Iff.rfl

@[simp] theorem follows_fault {post : α → Phase → Prop} {phase : Phase} {reason : Fault} :
    Follows protocol post phase (.fault reason : Program Op Answer Fault α) ↔
      protocol.tolerates phase reason := Iff.rfl

@[simp] theorem follows_call {post : α → Phase → Prop} {phase : Phase} {op : Op}
    {next : Answer op → Program Op Answer Fault α} :
    Follows protocol post phase (.call op next) ↔
      protocol.allows phase op ∧
        ∀ answer, Follows protocol post (protocol.next phase op answer) (next answer) :=
  Iff.rfl

theorem Follows.mono {post weaker : α → Phase → Prop}
    (implies : ∀ result phase, post result phase → weaker result phase)
    {phase : Phase} {program : Program Op Answer Fault α}
    (follows : Follows protocol post phase program) :
    Follows protocol weaker phase program := by
  induction program generalizing phase with
  | done result => exact implies result phase follows
  | fault reason => exact follows
  | call op next ih => exact ⟨follows.1, fun answer => ih answer (follows.2 answer)⟩

/-- Sequencing: the second part starts in a phase the first one may end in. -/
theorem Follows.bind {middle : α → Phase → Prop} {post : β → Phase → Prop}
    {phase : Phase} {program : Program Op Answer Fault α}
    {rest : α → Program Op Answer Fault β}
    (first : Follows protocol middle phase program)
    (second : ∀ result phase, middle result phase →
      Follows protocol post phase (rest result)) :
    Follows protocol post phase (program >>= rest) := by
  induction program generalizing phase with
  | done result => exact second result phase first
  | fault reason => exact first
  | call op next ih => exact ⟨first.1, fun answer => ih answer (first.2 answer)⟩

/-- A protocol that permits at least what another one does, as seen through a
relation between their phases, is followed as well. -/
theorem Follows.simulate {Other : Type} {other : Protocol Op Answer Fault Other}
    (related : Phase → Other → Prop)
    (step : ∀ phase phase' op, related phase phase' → protocol.allows phase op →
      other.allows phase' op ∧
        ∀ answer, related (protocol.next phase op answer) (other.next phase' op answer))
    (tolerates : ∀ phase phase' reason, related phase phase' →
      protocol.tolerates phase reason → other.tolerates phase' reason)
    {post : α → Phase → Prop} {phase : Phase} {phase' : Other}
    {program : Program Op Answer Fault α} (follows : Follows protocol post phase program)
    (start : related phase phase') :
    Follows other (fun result last => ∃ phase, related phase last ∧ post result phase)
      phase' program := by
  induction program generalizing phase phase' with
  | done result => exact ⟨phase, start, follows⟩
  | fault reason => exact tolerates phase phase' reason start follows
  | call op next ih =>
      obtain ⟨allowed, continues⟩ := step phase phase' op start follows.1
      exact ⟨allowed, fun answer => ih answer (follows.2 answer) (continues answer)⟩

/-- A relation between protocol phases and states that every allowed operation
preserves holds along the whole run, whether or not the run ends in a fault. -/
theorem Follows.run_invariant {σ : Type} (handler : (op : Op) → σ → Answer op × σ)
    (invariant : Phase → σ → Prop)
    (step : ∀ phase op state, protocol.allows phase op → invariant phase state →
      invariant (protocol.next phase op (handler op state).1) (handler op state).2)
    {post : α → Phase → Prop} {phase : Phase} {program : Program Op Answer Fault α}
    (follows : Follows protocol post phase program) {state : σ}
    (holds : invariant phase state) :
    ∃ last, invariant last (run handler program state).2 ∧
      ∀ result, (run handler program state).1 = .ok result → post result last := by
  induction program generalizing phase state with
  | done result =>
      refine ⟨phase, holds, ?_⟩
      intro other equal
      cases equal
      exact follows
  | fault reason => exact ⟨phase, holds, fun result equal => by cases equal⟩
  | call op next ih =>
      exact ih _ (follows.2 _) (step phase op state follows.1 holds)

end Follows

/-- A program that performs only allowed operations and runs only into tolerated
faults. -/
def Performs (allowed : Op → Prop) (tolerated : Fault → Prop)
    (program : Program Op Answer Fault α) : Prop :=
  Follows ⟨fun _ => allowed, fun _ _ _ => (), fun _ => tolerated⟩ (fun _ _ => True) () program

namespace Performs

variable {allowed : Op → Prop} {tolerated : Fault → Prop}

@[simp] theorem done (result : α) :
    Performs allowed tolerated (.done result : Program Op Answer Fault α) := trivial

@[simp] theorem fault_iff {reason : Fault} :
    Performs allowed tolerated (.fault reason : Program Op Answer Fault α) ↔
      tolerated reason := Iff.rfl

@[simp] theorem call_iff {op : Op} {next : Answer op → Program Op Answer Fault α} :
    Performs allowed tolerated (.call op next) ↔
      allowed op ∧ ∀ answer, Performs allowed tolerated (next answer) := Iff.rfl

@[simp] theorem perform_iff {op : Op} :
    Performs allowed tolerated (perform op : Program Op Answer Fault (Answer op)) ↔
      allowed op := by
  constructor
  · exact fun performs => performs.1
  · exact fun permitted => ⟨permitted, fun _ => trivial⟩

theorem ofOption {reason : Fault} (harmless : tolerated reason) (value : Option α) :
    Performs allowed tolerated
      (Program.ofOption reason value : Program Op Answer Fault α) := by
  cases value with
  | none => exact harmless
  | some value => trivial

theorem bind {program : Program Op Answer Fault α} {rest : α → Program Op Answer Fault β}
    (first : Performs allowed tolerated program)
    (second : ∀ result, Performs allowed tolerated (rest result)) :
    Performs allowed tolerated (program >>= rest) :=
  Follows.bind first fun result _ _ => second result

theorem mono {wider : Op → Prop} {laxer : Fault → Prop} {program : Program Op Answer Fault α}
    (performs : Performs allowed tolerated program) (ops : ∀ op, allowed op → wider op)
    (faults : ∀ reason, tolerated reason → laxer reason) : Performs wider laxer program := by
  induction program with
  | done result => trivial
  | fault reason => exact faults reason performs
  | call op next ih => exact ⟨ops op performs.1, fun answer => ih answer (performs.2 answer)⟩

/-- An invariant that every allowed operation preserves survives the run. -/
theorem run_invariant {σ : Type} (handler : (op : Op) → σ → Answer op × σ)
    (invariant : σ → Prop)
    (step : ∀ op state, allowed op → invariant state → invariant (handler op state).2)
    {program : Program Op Answer Fault α} (performs : Performs allowed tolerated program)
    {state : σ} (holds : invariant state) :
    invariant (run handler program state).2 := by
  obtain ⟨_, kept, _⟩ := Follows.run_invariant handler (fun _ => invariant)
    (fun _ => step) performs holds
  exact kept

/-- A run that ends in a fault ends in a tolerated one. -/
theorem run_tolerated {σ : Type} (handler : (op : Op) → σ → Answer op × σ)
    {program : Program Op Answer Fault α} (performs : Performs allowed tolerated program)
    {state : σ} {reason : Fault} (failed : (run handler program state).1 = .error reason) :
    tolerated reason := by
  induction program generalizing state with
  | done result => cases failed
  | fault other =>
      cases failed
      exact performs
  | call op next ih => exact ih _ (performs.2 _) failed

end Performs

/-! ## Partial correctness -/

section Yields

variable {σ : Type} (handler : (op : Op) → σ → Answer op × σ) (promise invariant : σ → Prop)

/-- What holds after an operation held before, too. -/
def Promise : Prop := ∀ op state, promise (handler op state).2 → promise state

variable {handler promise} in
theorem Promise.before_run (promised : Promise handler promise) (program : Program Op Answer Fault α)
    {state : σ} (holds : promise (run handler program state).2) : promise state := by
  induction program generalizing state with
  | done result | fault reason => exact holds
  | call op next ih => exact promised op state (ih _ holds)

/-- Started in a state that satisfies the invariant, the program returns only
results that satisfy the postcondition, and keeps the invariant, as far as the
environment keeps its promise to the end. -/
def Yields (program : Program Op Answer Fault α) (post : α → Prop) : Prop :=
  ∀ state, invariant state → ∀ result after,
    run handler program state = (.ok result, after) → promise after →
      post result ∧ invariant after

namespace Yields

variable {handler promise invariant} {program : Program Op Answer Fault α} {post : α → Prop}

theorem done {result : α} (holds : post result) :
    Yields handler promise invariant (.done result : Program Op Answer Fault α) post := by
  intro state kept other after equal _
  cases equal
  exact ⟨holds, kept⟩

theorem fault (reason : Fault) :
    Yields handler promise invariant (.fault reason : Program Op Answer Fault α) post :=
  fun _ _ _ _ equal => nomatch equal

theorem ofOption {reason : Fault} {value : Option α} (holds : ∀ result ∈ value, post result) :
    Yields handler promise invariant
      (Program.ofOption reason value : Program Op Answer Fault α) post := by
  cases value with
  | none => exact fault reason
  | some result => exact done (holds result rfl)

theorem perform {op : Op} {post : Answer op → Prop}
    (answers : ∀ state, invariant state → promise (handler op state).2 →
      post (handler op state).1 ∧ invariant (handler op state).2) :
    Yields handler promise invariant
      (Program.perform op : Program Op Answer Fault (Answer op)) post := by
  intro state kept result after equal honest
  cases equal
  exact answers state kept honest

theorem mono {weaker : α → Prop} (yields : Yields handler promise invariant program post)
    (implies : ∀ result, post result → weaker result) :
    Yields handler promise invariant program weaker := by
  intro state kept result after returned honest
  obtain ⟨holds, still⟩ := yields state kept result after returned honest
  exact ⟨implies result holds, still⟩

theorem bind (promised : Promise handler promise) {rest : α → Program Op Answer Fault β}
    {last : β → Prop} (first : Yields handler promise invariant program post)
    (second : ∀ result, post result → Yields handler promise invariant (rest result) last) :
    Yields handler promise invariant (program >>= rest) last := by
  intro state kept result after returned honest
  cases middle : run handler program state with
  | mk outcome next =>
      cases outcome with
      | error reason =>
          rw [run_bind_of_error handler middle] at returned
          cases returned
      | ok value =>
          rw [run_bind_of_ok handler middle] at returned
          have before : promise next := by
            apply promised.before_run (rest value)
            rw [returned]
            exact honest
          obtain ⟨holds, still⟩ := first state kept value next middle before
          exact second value holds next still result after returned honest

end Yields

end Yields

end Program

end BtTracker.Foundation
