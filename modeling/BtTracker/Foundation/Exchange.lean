import Mathlib.Data.List.Nodup
import Mathlib.Data.List.Perm.Basic
import Mathlib.Data.Set.Function

/-!
# Partial shuffles

A partial shuffle settles the positions of an array from the left: each round
exchanges the element at the next position with one that is not settled yet.
Its outcome is a rearrangement, and every way to pick some elements one after the
other is the outcome of one sequence of choices.
-/

namespace BtTracker.Foundation

variable {α : Type}

/-- Exchange the elements at two positions. -/
def exchange (elements : List α) (i j : Nat) : List α :=
  match elements[i]?, elements[j]? with
  | some left, some right => (elements.set i right).set j left
  | _, _ => elements

/-- Exchange the elements from position `i` on with those at the given positions,
one after the other. -/
def exchanges : (i : Nat) → List Nat → List α → List α
  | _, [], elements => elements
  | i, j :: rest, elements => exchanges (i + 1) rest (exchange elements i j)

/-- The sequences of choices of a partial shuffle: round `i` may choose any
position from `i` to the last one. -/
def Choices (size count : Nat) : Set (List Nat) :=
  {indices | indices.length = count ∧
    ∀ i j, indices[i]? = some j → i ≤ j ∧ j < size}

/-- The ways to pick a number of elements one after the other. -/
def Selections (elements : List α) (count : Nat) : Set (List α) :=
  {selection | selection.length = count ∧ selection.Nodup ∧ selection ⊆ elements}

theorem exchange_perm (elements : List α) (i j : Nat) :
    (exchange elements i j).Perm elements := by
  rw [exchange]
  split
  · rename_i left right first second
    obtain ⟨here, rfl⟩ := List.getElem?_eq_some_iff.mp first
    obtain ⟨there, rfl⟩ := List.getElem?_eq_some_iff.mp second
    exact List.set_set_perm here there
  · exact .refl _

theorem exchanges_perm (i : Nat) (indices : List Nat) (elements : List α) :
    (exchanges i indices elements).Perm elements := by
  induction indices generalizing i elements with
  | nil => exact .refl _
  | cons j rest ih =>
      apply (ih (i + 1) (exchange elements i j)).trans
      exact exchange_perm elements i j

/-! ## Settled elements -/

/-- The element in front stays where it is. -/
theorem exchange_cons (first : α) (elements : List α) (i j : Nat) :
    exchange (first :: elements) (i + 1) (j + 1) = first :: exchange elements i j := by
  simp only [exchange, List.getElem?_cons_succ]
  split <;> rfl

theorem exchanges_cons (first : α) (i : Nat) (indices : List Nat) (elements : List α) :
    exchanges (i + 1) (indices.map (· + 1)) (first :: elements) =
      first :: exchanges i indices elements := by
  induction indices generalizing i elements with
  | nil => rfl
  | cons j rest ih =>
      rw [List.map_cons, exchanges, exchange_cons, ih]
      rfl

/-- The first round moves the chosen element to the front. -/
theorem exchange_zero {elements : List α} {j : Nat} {chosen : α}
    (found : elements[j]? = some chosen) :
    ∃ others, exchange elements 0 j = chosen :: others := by
  cases elements with
  | nil => cases found
  | cons first rest =>
      rw [exchange, found]
      cases j with
      | zero => exact ⟨rest, by simpa using found⟩
      | succ j => exact ⟨rest.set j first, rfl⟩

/-! ## Choices -/

/-- After the first choice the remaining ones are those of a shorter array. -/
theorem cons_mem_choices {size count j : Nat} {rest : List Nat} :
    j :: rest ∈ Choices (size + 1) (count + 1) ↔
      j < size + 1 ∧ ∃ indices ∈ Choices size count, rest = indices.map (· + 1) := by
  constructor
  · rintro ⟨counted, allowed⟩
    have positive : ∀ k ∈ rest, k - 1 + 1 = k := by
      intro k member
      obtain ⟨i, found⟩ := List.mem_iff_getElem?.mp member
      have bounds := allowed (i + 1) k found
      omega
    refine ⟨(allowed 0 j rfl).2, rest.map (· - 1), ⟨?_, ?_⟩, ?_⟩
    · simpa using counted
    · intro i k found
      rw [List.getElem?_map] at found
      obtain ⟨index, present, rfl⟩ := Option.map_eq_some_iff.mp found
      have bounds := allowed (i + 1) index present
      omega
    · rw [List.map_map]
      exact ((List.map_congr_left positive).trans (List.map_id' rest)).symm
  · rintro ⟨bound, indices, ⟨counted, allowed⟩, rfl⟩
    refine ⟨by simp [counted], ?_⟩
    intro i k found
    cases i with
    | zero =>
        cases found
        exact ⟨Nat.zero_le _, bound⟩
    | succ i =>
        rw [List.getElem?_cons_succ, List.getElem?_map] at found
        obtain ⟨index, present, rfl⟩ := Option.map_eq_some_iff.mp found
        have bounds := allowed i index present
        omega

/-- What a partial shuffle settles is a selection. -/
theorem take_mem_selections {elements : List α} (distinct : elements.Nodup) {count : Nat}
    (few : count ≤ elements.length) (indices : List Nat) :
    (exchanges 0 indices elements).take count ∈ Selections elements count := by
  have perm := exchanges_perm 0 indices elements
  refine ⟨?_, ?_, ?_⟩
  · rw [List.length_take, perm.length_eq]
    omega
  · exact (perm.nodup_iff.mpr distinct).sublist (List.take_sublist ..)
  · exact List.Subset.trans (List.take_subset ..) perm.subset

/-- The outcome of a choice and of the ones after it. -/
theorem exchanges_zero_cons {elements others : List α} {j : Nat} {chosen : α}
    (settled : exchange elements 0 j = chosen :: others) (indices : List Nat) :
    exchanges 0 (j :: indices.map (· + 1)) elements = chosen :: exchanges 0 indices others := by
  rw [exchanges, settled, exchanges_cons]

/-- What is left of a selection is a selection of what is left. -/
theorem selection_tail {elements others selection : List α} {chosen : α}
    (perm : (chosen :: others).Perm elements)
    (selected : chosen :: selection ∈ Selections elements (selection.length + 1)) :
    selection ∈ Selections others selection.length := by
  obtain ⟨-, different, subset⟩ := selected
  obtain ⟨fresh, different⟩ := List.nodup_cons.mp different
  refine ⟨rfl, different, fun element member => ?_⟩
  have present := perm.mem_iff.mpr (subset (List.mem_cons_of_mem chosen member))
  rcases List.mem_cons.mp present with rfl | other
  · exact absurd member fresh
  · exact other

/-- Every selection is the outcome of exactly one sequence of choices. -/
theorem existsUnique_choices {elements : List α} (distinct : elements.Nodup)
    (selection : List α) (selected : selection ∈ Selections elements selection.length) :
    ∃! indices, indices ∈ Choices elements.length selection.length ∧
      (exchanges 0 indices elements).take selection.length = selection := by
  induction selection generalizing elements with
  | nil =>
      refine ⟨[], ⟨⟨rfl, nofun⟩, rfl⟩, ?_⟩
      rintro indices ⟨⟨counted, -⟩, -⟩
      exact List.length_eq_zero_iff.mp counted
  | cons chosen selection ih =>
      obtain ⟨j, found⟩ := List.mem_iff_getElem?.mp (selected.2.2 List.mem_cons_self)
      obtain ⟨others, settled⟩ := exchange_zero found
      have perm : (chosen :: others).Perm elements := settled ▸ exchange_perm elements 0 j
      have stillDistinct := (List.nodup_cons.mp (perm.nodup_iff.mpr distinct)).2
      obtain ⟨indices, ⟨allowed, picked⟩, unique⟩ :=
        ih stillDistinct (selection_tail perm selected)
      have size : elements.length = others.length + 1 := perm.length_eq.symm
      have bound := (List.getElem?_eq_some_iff.mp found).1
      rw [size] at bound ⊢
      refine ⟨j :: indices.map (· + 1), ⟨?_, ?_⟩, ?_⟩
      · exact cons_mem_choices.mpr ⟨bound, indices, allowed, rfl⟩
      · rw [exchanges_zero_cons settled, List.length_cons, List.take_succ_cons, picked]
      · rintro choices ⟨permitted, outcome⟩
        cases choices with
        | nil => cases permitted.1
        | cons first rest =>
            obtain ⟨inside, later, laterAllowed, rfl⟩ := cons_mem_choices.mp permitted
            rw [← size] at inside
            obtain ⟨left, moved⟩ := exchange_zero (List.getElem?_eq_getElem inside)
            rw [exchanges_zero_cons moved, List.length_cons, List.take_succ_cons] at outcome
            obtain ⟨front, following⟩ := List.cons.inj outcome
            -- the element in front tells the first choice
            have same : first = j := by
              apply (List.getElem?_inj inside distinct).mp
              rw [found, ← front, List.getElem?_eq_getElem inside]
            subst same
            cases moved.symm.trans settled
            rw [unique later ⟨laterAllowed, following⟩]

/-- A partial shuffle of different elements gives every selection the same
chance: choices and selections correspond one to one. -/
theorem bijOn_exchanges {elements : List α} (distinct : elements.Nodup) {count : Nat}
    (few : count ≤ elements.length) :
    Set.BijOn (fun indices => (exchanges 0 indices elements).take count)
      (Choices elements.length count) (Selections elements count) := by
  refine ⟨fun indices _ => take_mem_selections distinct few indices, ?_, ?_⟩
  · intro left leftAllowed right rightAllowed equal
    obtain ⟨counted, selected⟩ := take_mem_selections distinct few left
    obtain ⟨_, -, unique⟩ := existsUnique_choices distinct _ ⟨rfl, selected⟩
    rw [counted] at unique
    exact (unique left ⟨leftAllowed, rfl⟩).trans (unique right ⟨rightAllowed, equal.symm⟩).symm
  · intro selection selected
    obtain ⟨rfl, -⟩ := id selected
    obtain ⟨indices, outcome, -⟩ := existsUnique_choices distinct selection selected
    exact ⟨indices, outcome⟩

end BtTracker.Foundation
