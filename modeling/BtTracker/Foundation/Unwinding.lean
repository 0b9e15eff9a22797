import BtTracker.Foundation.Program

/-!
# Two runs side by side

What a part of the inputs has to do with the outputs for the others is a question
about two runs.  For one program, it is enough that every operation it performs is
answered alike in related states.  For a machine that takes one input after the
other, it is enough to look at one input: if those of one kind are answered alike in
related states, and the others do not lead out of the relation, then the others may
be left out without a trace.
-/

namespace BtTracker.Foundation

/-! ## Programs -/

namespace Program

variable {Op : Type} {Answer : Op → Type} {Fault α Phase : Type}
  {protocol : Protocol Op Answer Fault Phase} {post : α → Phase → Prop} {phase : Phase}
  {program : Program Op Answer Fault α}

/-- What a program performs adds to its protocol. -/
theorem Follows.performing {allowed : Op → Prop} {tolerated : Fault → Prop}
    (follows : Follows protocol post phase program)
    (performs : Performs allowed tolerated program) :
    Follows { protocol with allows := fun phase op => protocol.allows phase op ∧ allowed op }
      post phase program := by
  induction program generalizing phase with
  | done result => exact follows
  | fault reason => exact follows
  | call op next ih =>
      exact ⟨⟨follows.1, performs.1⟩, fun answer => ih answer (follows.2 answer)
        (performs.2 answer)⟩

/-- If related states answer every allowed operation alike and stay related, then a
program ends in both of them in the same way. -/
theorem Follows.run_related {σ : Type} (handler : (op : Op) → σ → Answer op × σ)
    (related : Phase → σ → σ → Prop)
    (step : ∀ phase op left right, protocol.allows phase op → related phase left right →
      (handler op left).1 = (handler op right).1 ∧
        related (protocol.next phase op (handler op left).1) (handler op left).2
          (handler op right).2)
    (follows : Follows protocol post phase program) {left right : σ}
    (start : related phase left right) :
    (run handler program left).1 = (run handler program right).1 ∧
      ∃ last, related last (run handler program left).2 (run handler program right).2 := by
  induction program generalizing phase left right with
  | done result => exact ⟨rfl, phase, start⟩
  | fault reason => exact ⟨rfl, phase, start⟩
  | call op next ih =>
      obtain ⟨same, continues⟩ := step phase op left right follows.1 start
      rw [run_call, run_call, ← same]
      exact ih _ (follows.2 _) continues

end Program

/-! ## Machines -/

section Machine

variable {σ ι ο : Type} (step : σ → ι → ο × σ)

/-- The inputs of a machine with its outputs. -/
def transcript : σ → List ι → List (ι × ο)
  | _, [] => []
  | state, input :: rest =>
      (input, (step state input).1) :: transcript (step state input).2 rest

/-- The state after all inputs. -/
def final (state : σ) (inputs : List ι) : σ :=
  inputs.foldl (fun state input => (step state input).2) state

/-- A relation between states under which only some of the inputs count, and proper ones
among them are answered alike. -/
structure Unwinds (proper counts : ι → Prop) (related : σ → σ → Prop) : Prop where
  answers : ∀ ⦃left right input⦄, related left right → proper input → counts input →
    (step left input).1 = (step right input).1
  keeps : ∀ ⦃left right input⦄, related left right → proper input → counts input →
    related (step left input).2 (step right input).2
  ignores : ∀ ⦃left right input⦄, related left right → ¬counts input →
    related (step left input).2 right

variable {step} {proper counts : ι → Prop} [DecidablePred counts] {related : σ → σ → Prop}

/-- Without the inputs that do not count, the outputs for the others are the same, if these
are proper. -/
theorem Unwinds.transcript_filter (unwinds : Unwinds step proper counts related)
    {inputs : List ι} (all : ∀ input ∈ inputs, counts input → proper input) {left right : σ}
    (start : related left right) :
    (transcript step left inputs).filter (fun event => counts event.1) =
        transcript step right (inputs.filter counts) ∧
      related (final step left inputs) (final step right (inputs.filter counts)) := by
  induction inputs generalizing left right with
  | nil => exact ⟨rfl, start⟩
  | cons input rest ih =>
      have later := fun other member => all other (List.mem_cons_of_mem input member)
      by_cases counted : counts input
      · have fit := all input (List.mem_cons_self ..) counted
        obtain ⟨others, last⟩ := ih later (unwinds.keeps start fit counted)
        have same := unwinds.answers start fit counted
        simp only [transcript, List.filter_cons, counted, decide_true, if_true]
        exact ⟨by rw [others, same], last⟩
      · obtain ⟨others, last⟩ := ih later (unwinds.ignores start counted)
        simp only [transcript, List.filter_cons, counted, decide_false, Bool.false_eq_true,
          if_false]
        exact ⟨others, last⟩

end Machine

end BtTracker.Foundation
