import Mathlib.Data.List.Count
import Mathlib.Tactic.Common

/-!
# Resources that are acquired, used and released

A history lists what happened to the resources of a client, the last event
first.  It is sound if every resource is acquired once, and is used and released
only between its acquisition and its release.
-/

namespace BtTracker.Foundation

/-- Something that happens to a resource. -/
inductive Usage (Resource : Type) where
  | acquired (resource : Resource)
  | used (resource : Resource)
  | released (resource : Resource)
  deriving DecidableEq, Repr

namespace Usage

variable {Resource : Type} {resource other : Resource} {history : List (Usage Resource)}

/-- The resource was acquired and is not released yet. -/
def Live (history : List (Usage Resource)) (resource : Resource) : Prop :=
  .acquired resource ∈ history ∧ .released resource ∉ history

instance [DecidableEq Resource] : Decidable (Live history resource) :=
  inferInstanceAs (Decidable (_ ∧ _))

/-- Every event comes at its time. -/
def Sound : List (Usage Resource) → Prop
  | [] => True
  | .acquired resource :: history =>
      .acquired resource ∉ history ∧ .released resource ∉ history ∧ Sound history
  | .used resource :: history | .released resource :: history =>
      Live history resource ∧ Sound history

@[simp] theorem live_acquired :
    Live (.acquired other :: history) resource ↔
      (resource = other ∨ .acquired resource ∈ history) ∧ .released resource ∉ history := by
  simp [Live]

@[simp] theorem live_used : Live (.used other :: history) resource ↔ Live history resource := by
  simp [Live]

@[simp] theorem live_released :
    Live (.released other :: history) resource ↔ Live history resource ∧ resource ≠ other := by
  simp only [Live, List.mem_cons, reduceCtorEq, false_or, released.injEq, not_or]
  constructor
  · intro live
    exact ⟨⟨live.1, live.2.2⟩, live.2.1⟩
  · intro live
    exact ⟨live.1.1, live.2, live.1.2⟩

namespace Sound

/-- Only what was acquired is released. -/
theorem acquired_of_released (sound : Sound history) (member : .released resource ∈ history) :
    .acquired resource ∈ history := by
  induction history with
  | nil => cases member
  | cons event history ih =>
      rcases List.mem_cons.mp member with rfl | earlier
      · exact List.mem_cons_of_mem _ sound.1.1
      · cases event with
        | acquired first => exact List.mem_cons_of_mem _ (ih sound.2.2 earlier)
        | used first | released first => exact List.mem_cons_of_mem _ (ih sound.2 earlier)

theorem tail {event : Usage Resource} (sound : Sound (event :: history)) : Sound history := by
  cases event with
  | acquired first => exact sound.2.2
  | used first | released first => exact sound.2

/-- Nothing is released twice. -/
theorem count_released_le [DecidableEq Resource] (sound : Sound history) (resource : Resource) :
    history.count (.released resource) ≤ 1 := by
  induction history with
  | nil => simp
  | cons event history ih =>
      have earlier := ih sound.tail
      by_cases release : event = .released resource
      · subst release
        have first : history.count (.released resource) = 0 :=
          List.count_eq_zero_of_not_mem sound.1.2
        rw [List.count_cons_self]
        omega
      · rw [List.count_cons_of_ne release]
        exact earlier

/-- Nothing is used after it was released. -/
theorem live_of_used (sound : Sound history) {later earlier : List (Usage Resource)}
    (split : history = later ++ .used resource :: earlier) : Live earlier resource := by
  induction later generalizing history with
  | nil =>
      subst split
      exact sound.1
  | cons event later ih =>
      subst split
      exact ih sound.tail rfl

end Sound

/-! ## Holding one resource at most -/

/-- The history is sound, and what is live is exactly the resource that is
held. -/
structure Holds (history : List (Usage Resource)) (held : Option Resource) : Prop where
  sound : Sound history
  live_iff : ∀ resource, Live history resource ↔ held = some resource

namespace Holds

variable {held : Option Resource}

theorem nil : Holds ([] : List (Usage Resource)) none :=
  ⟨trivial, fun _ => ⟨nofun, nofun⟩⟩

/-- What was never acquired was never released. -/
theorem not_released (holds : Holds history held) (fresh : .acquired resource ∉ history) :
    .released resource ∉ history :=
  fun released => fresh (holds.sound.acquired_of_released released)

/-- Using the resource that is held. -/
theorem use (holds : Holds history (some resource)) :
    Holds (.used resource :: history) (some resource) := by
  constructor
  · exact ⟨(holds.live_iff resource).mpr rfl, holds.sound⟩
  · intro other
    rw [live_used]
    exact holds.live_iff other

/-- Acquiring a resource and releasing it again. -/
theorem discard (holds : Holds history held) (fresh : .acquired resource ∉ history) :
    Holds (.released resource :: .acquired resource :: history) held := by
  have unreleased := holds.not_released fresh
  constructor
  · exact ⟨live_acquired.mpr ⟨.inl rfl, unreleased⟩, fresh, unreleased, holds.sound⟩
  · intro other
    rw [live_released, live_acquired, ← holds.live_iff other, Live]
    constructor
    · intro live
      exact ⟨live.1.1.resolve_left live.2, live.1.2⟩
    · intro live
      refine ⟨⟨.inr live.1, live.2⟩, ?_⟩
      rintro rfl
      exact fresh live.1

/-- Releasing what is held, if anything. -/
theorem release (holds : Holds history held) :
    Holds ((held.map released).toList ++ history) none := by
  cases held with
  | none => exact holds
  | some old =>
      constructor
      · exact ⟨(holds.live_iff old).mpr rfl, holds.sound⟩
      · intro other
        refine ⟨fun live => ?_, nofun⟩
        obtain ⟨live, different⟩ := live_released.mp live
        cases (holds.live_iff other).mp live
        exact absurd rfl different

/-- Acquiring and using a resource that takes the place of the one that is
held. -/
theorem exchange (holds : Holds history held) (fresh : .acquired resource ∉ history) :
    Holds ((held.map released).toList ++ .used resource :: .acquired resource :: history)
      (some resource) := by
  have unreleased := holds.not_released fresh
  have opened : Live (.acquired resource :: history) resource :=
    live_acquired.mpr ⟨.inl rfl, unreleased⟩
  have sound : Sound (.used resource :: .acquired resource :: history) :=
    ⟨opened, fresh, unreleased, holds.sound⟩
  have live_iff (other : Resource) :
      Live (.used resource :: .acquired resource :: history) other ↔
        resource = other ∨ held = some other := by
    rw [live_used, live_acquired, ← holds.live_iff other, Live]
    constructor
    · rintro ⟨rfl | acquired, kept⟩
      · exact .inl rfl
      · exact .inr ⟨acquired, kept⟩
    · rintro (rfl | live)
      · exact ⟨.inl rfl, unreleased⟩
      · exact ⟨.inr live.1, live.2⟩
  cases held with
  | none => exact ⟨sound, fun other => by simp [live_iff]⟩
  | some old =>
      have different : resource ≠ old := by
        rintro rfl
        exact fresh ((holds.live_iff resource).mpr rfl).1
      constructor
      · exact ⟨(live_iff old).mpr (.inr rfl), sound⟩
      · intro other
        change Live (.released old :: .used resource :: .acquired resource :: history) other ↔ _
        rw [live_released, live_iff]
        constructor
        · rintro ⟨rfl | same, changed⟩
          · rfl
          · exact absurd (Option.some.inj same).symm changed
        · intro same
          cases same
          exact ⟨.inl rfl, different⟩

end Holds

end Usage

end BtTracker.Foundation
