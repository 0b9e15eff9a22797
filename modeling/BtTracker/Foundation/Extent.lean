import BtTracker.Foundation.Program

/-!
# How much a program does

Bounds on a program that hold whatever the environment answers: on the number of
its operations, on how often it performs operations of a given kind, and on what
it may return.
-/

namespace BtTracker.Foundation.Program

variable {Op : Type} {Answer : Op → Type} {Fault : Type} {α β : Type}

/-! ## Number of operations -/

/-- The program ends, with a result or with a fault, after at most so many
operations. -/
def EndsWithin : Nat → Program Op Answer Fault α → Prop
  | _, .done _ => True
  | _, .fault _ => True
  | 0, .call _ _ => False
  | limit + 1, .call _ next => ∀ answer, EndsWithin limit (next answer)

namespace EndsWithin

variable {limit : Nat} {program : Program Op Answer Fault α}

theorem done (limit : Nat) (result : α) :
    EndsWithin limit (.done result : Program Op Answer Fault α) := by
  cases limit <;> trivial

theorem fault (limit : Nat) (reason : Fault) :
    EndsWithin limit (.fault reason : Program Op Answer Fault α) := by
  cases limit <;> trivial

theorem perform (op : Op) :
    EndsWithin 1 (Program.perform op : Program Op Answer Fault (Answer op)) := by
  intro answer
  exact done 0 answer

theorem ofOption (limit : Nat) (reason : Fault) (value : Option α) :
    EndsWithin limit (Program.ofOption reason value : Program Op Answer Fault α) := by
  cases value with
  | none => exact fault limit reason
  | some value => exact done limit value

theorem mono {larger : Nat} (within : EndsWithin limit program) (le : limit ≤ larger) :
    EndsWithin larger program := by
  induction program generalizing limit larger with
  | done result => exact done larger result
  | fault reason => exact fault larger reason
  | call op next ih =>
      cases limit with
      | zero => exact within.elim
      | succ limit =>
          cases larger with
          | zero => exact absurd le (Nat.not_succ_le_zero limit)
          | succ larger =>
              intro answer
              exact ih answer (within answer) (Nat.le_of_succ_le_succ le)

/-- The operations of both parts add up. -/
theorem bind {more : Nat} {rest : α → Program Op Answer Fault β}
    (first : EndsWithin limit program) (second : ∀ result, EndsWithin more (rest result)) :
    EndsWithin (more + limit) (program >>= rest) := by
  induction program generalizing limit with
  | done result => exact (second result).mono (Nat.le_add_right more limit)
  | fault reason => exact fault _ reason
  | call op next ih =>
      cases limit with
      | zero => exact first.elim
      | succ limit =>
          intro answer
          exact ih answer (first answer)

/-- What follows performs nothing. -/
theorem bind_zero {rest : α → Program Op Answer Fault β} (first : EndsWithin limit program)
    (second : ∀ result, EndsWithin 0 (rest result)) : EndsWithin limit (program >>= rest) :=
  (first.bind second).mono (Nat.le_of_eq (Nat.zero_add limit))

end EndsWithin

/-! ## Operations of a kind -/

section Kind

variable (kind : Op → Prop)

/-- Some answers lead the program to an operation of the kind. -/
def MayPerform : Program Op Answer Fault α → Prop
  | .done _ => False
  | .fault _ => False
  | .call op next => kind op ∨ ∃ answer, MayPerform (next answer)

/-- No answers lead the program to two operations of the kind. -/
def AtMostOnce : Program Op Answer Fault α → Prop
  | .done _ => True
  | .fault _ => True
  | .call op next =>
      ∀ answer, (kind op → ¬MayPerform kind (next answer)) ∧ AtMostOnce (next answer)

end Kind

variable {kind : Op → Prop} {program : Program Op Answer Fault α}

/-- A program that performs only other operations. -/
theorem Performs.not_mayPerform {allowed : Op → Prop} {tolerated : Fault → Prop}
    (performs : Performs allowed tolerated program) (other : ∀ op, allowed op → ¬kind op) :
    ¬program.MayPerform kind := by
  induction program with
  | done result => exact id
  | fault reason => exact id
  | call op next ih =>
      intro may
      rcases may with ofKind | ⟨answer, later⟩
      · exact other op performs.1 ofKind
      · exact ih answer (performs.2 answer) later

theorem MayPerform.of_bind {rest : α → Program Op Answer Fault β}
    (may : (program >>= rest).MayPerform kind) :
    program.MayPerform kind ∨ ∃ result, (rest result).MayPerform kind := by
  induction program with
  | done result => exact .inr ⟨result, may⟩
  | fault reason => exact may.elim
  | call op next ih =>
      rcases may with ofKind | ⟨answer, later⟩
      · exact .inl (.inl ofKind)
      · rcases ih answer later with first | second
        · exact .inl (.inr ⟨answer, first⟩)
        · exact .inr second

namespace AtMostOnce

theorem of_not_mayPerform (never : ¬program.MayPerform kind) : program.AtMostOnce kind := by
  induction program with
  | done result => trivial
  | fault reason => trivial
  | call op next ih =>
      intro answer
      have later : ¬(next answer).MayPerform kind := fun may => never (.inr ⟨answer, may⟩)
      exact ⟨fun _ => later, ih answer later⟩

theorem perform (op : Op) :
    (Program.perform op : Program Op Answer Fault (Answer op)).AtMostOnce kind :=
  fun _ => ⟨fun _ => id, trivial⟩

/-- The second part performs the operation, if any. -/
theorem bind_of_never {rest : α → Program Op Answer Fault β}
    (never : ¬program.MayPerform kind) (once : ∀ result, (rest result).AtMostOnce kind) :
    (program >>= rest).AtMostOnce kind := by
  induction program with
  | done result => exact once result
  | fault reason => trivial
  | call op next ih =>
      intro answer
      constructor
      · intro ofKind
        exact absurd (.inl ofKind) never
      · apply ih
        intro may
        exact never (.inr ⟨answer, may⟩)

/-- The first part performs the operation, if any. -/
theorem bind_never {rest : α → Program Op Answer Fault β} (once : program.AtMostOnce kind)
    (never : ∀ result, ¬(rest result).MayPerform kind) :
    (program >>= rest).AtMostOnce kind := by
  induction program with
  | done result => exact of_not_mayPerform (never result)
  | fault reason => trivial
  | call op next ih =>
      intro answer
      constructor
      · intro ofKind may
        rcases may.of_bind with first | ⟨result, second⟩
        · exact (once answer).1 ofKind first
        · exact never result second
      · exact ih answer (once answer).2

end AtMostOnce

/-! ## Results -/

/-- Every result satisfies the postcondition. -/
abbrev Results (post : α → Prop) (program : Program Op Answer Fault α) : Prop :=
  Follows ⟨fun _ _ => True, fun _ _ _ => (), fun _ _ => True⟩ (fun result _ => post result) ()
    program

namespace Results

variable {post : α → Prop}

theorem any (program : Program Op Answer Fault α) : Results (fun _ => True) program := by
  induction program with
  | done result => trivial
  | fault reason => trivial
  | call op next ih => exact ⟨trivial, ih⟩

theorem ofOption {reason : Fault} {value : Option α} (holds : ∀ result ∈ value, post result) :
    Results post (Program.ofOption reason value : Program Op Answer Fault α) := by
  cases value with
  | none => trivial
  | some result => exact holds result rfl

theorem bind {last : β → Prop} {rest : α → Program Op Answer Fault β}
    (first : Results post program) (second : ∀ result, post result → Results last (rest result)) :
    Results last (program >>= rest) :=
  Follows.bind first fun result _ holds => second result holds

/-- What the second part may do depends on the result of the first one. -/
theorem performs_bind {allowed : Op → Prop} {tolerated : Fault → Prop}
    {rest : α → Program Op Answer Fault β} (results : Results post program)
    (first : Performs allowed tolerated program)
    (second : ∀ result, post result → Performs allowed tolerated (rest result)) :
    Performs allowed tolerated (program >>= rest) := by
  induction program with
  | done result => exact second result results
  | fault reason => exact first
  | call op next ih => exact ⟨first.1, fun answer => ih answer (results.2 answer) (first.2 answer)⟩

end Results

end BtTracker.Foundation.Program
