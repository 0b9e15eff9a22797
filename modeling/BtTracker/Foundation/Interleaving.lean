import BtTracker.Foundation.Program
import Mathlib.Data.List.Pairwise

/-!
# Interleaving independent programs

Several threads run programs against one state, one operation at a time and in
any order.  If the operations of different threads commute, an operation that
was performed early may as well be performed when it is the turn of its thread.
So no operation changes where running the threads one after the other ends, and
their order does not matter either.
-/

namespace BtTracker.Foundation.Program

variable {Op : Type} {Answer : Op → Type} {Fault α σ τ : Type}

/-- A program that performs only allowed operations, and goes on in the same way
whatever it is answered to a blind one. -/
def Confined (allowed blind : Op → Prop) : Program Op Answer Fault α → Prop
  | .done _ | .fault _ => True
  | .call op next => allowed op ∧ (blind op → ∀ first second, next first = next second) ∧
      ∀ answer, (next answer).Confined allowed blind

/-- Two operations commute: the order does not matter for the state, and it
matters for no answer that anybody looks at. -/
structure Commutes (blind : Op → Prop) (left right : (op : Op) → σ → Answer op × σ)
    (op other : Op) : Prop where
  states : ∀ state, (right other (left op state).2).2 = (left op (right other state).2).2
  first : blind op ∨ ∀ state, (left op (right other state).2).1 = (left op state).1
  second : blind other ∨ ∀ state, (right other (left op state).2).1 = (right other state).1

theorem Commutes.symm {blind : Op → Prop} {left right : (op : Op) → σ → Answer op × σ}
    {op other : Op} (commutes : Commutes blind left right op other) :
    Commutes blind right left other op :=
  ⟨fun state => (commutes.states state).symm, commutes.second, commutes.first⟩

/-! ## Threads -/

section Threads

variable (handler : τ → (op : Op) → σ → Answer op × σ)

/-- A thread and the rest of its program. -/
abbrev ThreadOf (Op : Type) (Answer : Op → Type) (Fault α τ : Type) : Type :=
  τ × Program Op Answer Fault α

/-- Some thread performs its next operation. -/
inductive Advances : List (ThreadOf Op Answer Fault α τ) → σ →
    List (ThreadOf Op Answer Fault α τ) → σ → Prop where
  | step (before after : List (ThreadOf Op Answer Fault α τ)) (thread : τ) (op : Op)
      (next : Answer op → Program Op Answer Fault α) (state : σ) :
      Advances (before ++ (thread, .call op next) :: after) state
        (before ++ (thread, next (handler thread op state).1) :: after)
        (handler thread op state).2

/-- Run the threads one after the other, each to its end. -/
def sequential (threads : List (ThreadOf Op Answer Fault α τ)) (state : σ) : σ :=
  threads.foldl (fun state thread => (run (handler thread.1) thread.2 state).2) state

/-- No thread has anything left to do. -/
def Finished (threads : List (ThreadOf Op Answer Fault α τ)) : Prop :=
  ∀ thread ∈ threads, ∃ result, thread.2 = .done result

theorem sequential_of_finished {threads : List (ThreadOf Op Answer Fault α τ)}
    (finished : Finished threads) (state : σ) : sequential handler threads state = state := by
  induction threads with
  | nil => rfl
  | cons thread rest ih =>
      obtain ⟨result, ended⟩ := finished thread (List.mem_cons_self ..)
      have others := ih fun other member => finished other (List.mem_cons_of_mem _ member)
      simp only [sequential, List.foldl_cons, ended, run_done] at others ⊢
      exact others

end Threads

/-! ## Independent threads -/

section Independent

variable {handler : τ → (op : Op) → σ → Answer op × σ} {allowed : τ → Op → Prop}
variable {blind : Op → Prop} {apart : τ → τ → Prop}

/-- An operation commutes with the whole program of another thread. -/
theorem Confined.run_commutes {left right : τ} {op : Op} {program : Program Op Answer Fault α}
    (confined : program.Confined (allowed right) blind)
    (commutes : ∀ other, allowed right other →
      Commutes blind (handler left) (handler right) op other) (state : σ) :
    (run (handler right) program (handler left op state).2).2 =
        (handler left op (run (handler right) program state).2).2 ∧
      (blind op ∨
        (handler left op (run (handler right) program state).2).1 = (handler left op state).1) := by
  induction program generalizing state with
  | done result => exact ⟨rfl, .inr rfl⟩
  | fault reason => exact ⟨rfl, .inr rfl⟩
  | call other next ih =>
      obtain ⟨permitted, ignores, continues⟩ := confined
      have commute := commutes other permitted
      have same : next (handler right other (handler left op state).2).1 =
          next (handler right other state).1 := by
        rcases commute.second with isBlind | equal
        · exact ignores isBlind _ _
        · rw [equal]
      obtain ⟨states, answers⟩ := ih (handler right other state).1 (continues _)
        (handler right other state).2
      constructor
      · rw [run_call, run_call, same, commute.states]
        exact states
      · rcases commute.first with isBlind | equal
        · exact .inl isBlind
        · rw [equal] at answers
          exact answers

/-- The threads keep to their operations, and any two of them are apart. -/
structure Separate (allowed : τ → Op → Prop) (blind : Op → Prop) (apart : τ → τ → Prop)
    (threads : List (ThreadOf Op Answer Fault α τ)) : Prop where
  confined : ∀ thread ∈ threads, thread.2.Confined (allowed thread.1) blind
  pairwise : (threads.map Prod.fst).Pairwise apart

/-- An operation commutes with everything the threads in front of it do. -/
theorem sequential_commutes {threads : List (ThreadOf Op Answer Fault α τ)}
    (confined : ∀ thread ∈ threads, thread.2.Confined (allowed thread.1) blind) {tag : τ} {op : Op}
    (commutes : ∀ thread ∈ threads, ∀ other, allowed thread.1 other →
      Commutes blind (handler tag) (handler thread.1) op other) (state : σ) :
    sequential handler threads (handler tag op state).2 =
        (handler tag op (sequential handler threads state)).2 ∧
      (blind op ∨
        (handler tag op (sequential handler threads state)).1 = (handler tag op state).1) := by
  induction threads generalizing state with
  | nil => exact ⟨rfl, .inr rfl⟩
  | cons thread rest ih =>
      have first : thread ∈ thread :: rest := List.mem_cons_self ..
      obtain ⟨states, answers⟩ := (confined thread first).run_commutes (commutes thread first) state
      obtain ⟨laterStates, laterAnswers⟩ := ih
        (fun other member => confined other (List.mem_cons_of_mem _ member))
        (fun other member => commutes other (List.mem_cons_of_mem _ member))
        (run (handler thread.1) thread.2 state).2
      simp only [sequential, List.foldl_cons] at laterStates laterAnswers ⊢
      constructor
      · rw [states]
        exact laterStates
      · rcases answers with isBlind | equal
        · exact .inl isBlind
        · rw [← equal]
          exact laterAnswers

/-- Performing an operation early changes nothing. -/
theorem Advances.sequential_eq
    (independent : ∀ left right, apart left right → ∀ op, allowed left op → ∀ other,
      allowed right other → Commutes blind (handler left) (handler right) op other)
    {threads next : List (ThreadOf Op Answer Fault α τ)} {state middle : σ}
    (separate : Separate allowed blind apart threads)
    (step : Advances handler threads state next middle) :
    Separate allowed blind apart next ∧
      sequential handler next middle = sequential handler threads state := by
  cases step with
  | step before after tag op continues state =>
      have own := separate.confined (tag, .call op continues) (by simp)
      have inFront (thread : ThreadOf Op Answer Fault α τ) (member : thread ∈ before) :
          thread.2.Confined (allowed thread.1) blind ∧ apart thread.1 tag := by
        have pairwise := separate.pairwise
        rw [List.map_append, List.pairwise_append] at pairwise
        constructor
        · exact separate.confined thread (List.mem_append_left _ member)
        · exact pairwise.2.2 _ (List.mem_map_of_mem member) _ (by simp)
      obtain ⟨states, answers⟩ := sequential_commutes (fun thread member => (inFront thread member).1)
        (fun thread member other permitted =>
          (independent _ _ (inFront thread member).2 other permitted op own.1).symm) state
      have same : continues (handler tag op (sequential handler before state)).1 =
          continues (handler tag op state).1 := by
        rcases answers with isBlind | equal
        · exact own.2.1 isBlind _ _
        · rw [equal]
      refine ⟨⟨fun thread member => ?_, ?_⟩, ?_⟩
      · rcases List.mem_append.mp member with early | late
        · exact separate.confined thread (List.mem_append_left _ early)
        · rcases List.mem_cons.mp late with rfl | later
          · exact own.2.2 _
          · exact separate.confined thread
              (List.mem_append_right _ (List.mem_cons_of_mem _ later))
      · have tags := separate.pairwise
        rw [List.map_append, List.map_cons] at tags ⊢
        exact tags
      · simp only [sequential, List.foldl_append, List.foldl_cons, run_call] at states same ⊢
        rw [states, same]

/-! ## The order of the threads -/

/-- Two programs commute. -/
theorem Confined.run_comm {left right : τ} {program other : Program Op Answer Fault α}
    (confined : program.Confined (allowed left) blind)
    (otherConfined : other.Confined (allowed right) blind)
    (commutes : ∀ op, allowed left op → ∀ other, allowed right other →
      Commutes blind (handler left) (handler right) op other) (state : σ) :
    (run (handler right) other (run (handler left) program state).2).2 =
      (run (handler left) program (run (handler right) other state).2).2 := by
  induction program generalizing state with
  | done result => rfl
  | fault reason => rfl
  | call op next ih =>
      obtain ⟨permitted, ignores, continues⟩ := confined
      obtain ⟨states, answers⟩ := otherConfined.run_commutes (commutes op permitted) state
      have same : next (handler left op (run (handler right) other state).2).1 =
          next (handler left op state).1 := by
        rcases answers with isBlind | equal
        · exact ignores isBlind _ _
        · rw [equal]
      rw [run_call, run_call, ih _ (continues _), states, same]

/-- Independent threads may run in any order. -/
theorem Separate.sequential_perm [Std.Symm apart]
    (independent : ∀ left right, apart left right → ∀ op, allowed left op → ∀ other,
      allowed right other → Commutes blind (handler left) (handler right) op other)
    {threads others : List (ThreadOf Op Answer Fault α τ)}
    (separate : Separate allowed blind apart threads) (perm : threads.Perm others) (state : σ) :
    sequential handler threads state = sequential handler others state := by
  have symmetric : Std.Symm fun left right : ThreadOf Op Answer Fault α τ =>
      apart left.1 right.1 := ⟨fun _ _ => Std.Symm.symm _ _⟩
  have pairwise := List.pairwise_map.mp separate.pairwise
  refine perm.foldl_eq' (fun left leftMember right rightMember middle => ?_) state
  by_cases same : left = right
  · rw [same]
  · exact (separate.confined left leftMember).run_comm (separate.confined right rightMember)
      (independent _ _ (pairwise.forall leftMember rightMember same)) middle

end Independent

end BtTracker.Foundation.Program
