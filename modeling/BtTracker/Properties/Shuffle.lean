import BtTracker.Correctness.PeerLists

/-!
# The shuffle of a peer list

Each round of the shuffle exchanges a key with one that `randr` picks among those
that are not settled yet.  If the indices were what they are meant to be, every
selection of peers would have the same chance.  They are, except for the largest
number the generator returns: it is scaled to one more than the upper bound.
-/

namespace BtTracker

open BtTracker.Foundation

variable {world : World}

/-! ## Random indices -/

namespace World

/-- The next call of `randr` returns a number between its bounds. -/
def RandrKeeps (world : World) (min max : BitVec 32) : Prop :=
  ∃ result, (world.run (randr min max)).1 = .ok result ∧ min ≤ result ∧ result ≤ max

/-- The next draw is the index of a key that is not settled yet, for round `i` of a
shuffle of `total` keys. -/
def IndexKeeps (world : World) (total i : Nat) : Prop :=
  ∃ j, (world.run (randr (BitVec.ofNat 32 i) (BitVec.ofNat 32 (total - 1)))).1 = .ok j ∧
    (i : Int) ≤ j.toInt ∧ j.toInt < total

/-- How far the next draw is from its lower bound, in exact arithmetic. -/
def scaled (world : World) (width : Nat) : Nat :=
  width * (world.choices 0).random.val / randMax

theorem run_randr (world : World) (min max : BitVec 32) :
    (world.run (randr min max)).1 = .ok (BitVec.ofNat 32
      (world.scaled (max - min + 1).toNat + min.toNat)) := rfl

theorem scaled_le (world : World) (width : Nat) : world.scaled width ≤ width := by
  have bound := (world.choices 0).random.isLt
  apply Nat.div_le_of_le_mul
  rw [Nat.mul_comm]
  exact Nat.mul_le_mul_right width (by omega)

theorem scaled_last {width : Nat} (last : (world.choices 0).random.val = randMax) :
    world.scaled width = width := by
  rw [scaled, last]
  exact Nat.mul_div_cancel width (by decide)

theorem scaled_lt {width : Nat} (positive : 0 < width)
    (other : (world.choices 0).random.val ≠ randMax) : world.scaled width < width := by
  have bound := (world.choices 0).random.isLt
  rw [scaled, Nat.div_lt_iff_lt_mul (by decide)]
  exact Nat.mul_lt_mul_of_pos_left (by omega) positive

end World

/-- The number of values between two bounds.  It is a 32-bit word, so it wraps if
every word is allowed. -/
theorem toNat_width {min max : BitVec 32} (ordered : min ≤ max) :
    (max - min + 1).toNat = (max.toNat - min.toNat + 1) % 2 ^ 32 := by
  have one : (1 : BitVec 32).toNat = 1 := rfl
  have bound := max.isLt
  rw [BitVec.toNat_add, BitVec.toNat_sub_of_le ordered, one]

/-- `RAND_MAX` itself is scaled to one more than the upper bound.  Only if every
word is allowed this makes no difference: then the width wraps to zero. -/
theorem randrKeeps_iff {min max : BitVec 32} (ordered : min ≤ max) :
    world.RandrKeeps min max ↔
      (world.choices 0).random.val ≠ randMax ∨ (min = 0 ∧ max = BitVec.allOnes 32) := by
  have width := toNat_width ordered
  have bound := max.isLt
  have small : world.RandrKeeps min max ↔
      min.toNat ≤ (world.scaled (max - min + 1).toNat + min.toNat) % 2 ^ 32 ∧
        (world.scaled (max - min + 1).toNat + min.toNat) % 2 ^ 32 ≤ max.toNat := by
    simp only [World.RandrKeeps, World.run_randr, Except.ok.injEq, exists_eq_left',
      BitVec.le_def, BitVec.toNat_ofNat]
  rw [BitVec.le_def] at ordered
  rw [small]
  by_cases full : min = 0 ∧ max = BitVec.allOnes 32
  · obtain ⟨rfl, rfl⟩ := full
    have none : (BitVec.allOnes 32 - 0 + 1).toNat = 0 := by decide
    have still : world.scaled 0 = 0 := Nat.le_zero.mp (world.scaled_le 0)
    rw [none, still]
    simp
  · have narrow : max.toNat - min.toNat + 1 < 2 ^ 32 := by
      by_contra wide
      apply full
      constructor
      · apply BitVec.eq_of_toNat_eq
        simp only [BitVec.ofNat_eq_ofNat, BitVec.toNat_ofNat]
        omega
      · apply BitVec.eq_of_toNat_eq
        rw [BitVec.toNat_allOnes]
        omega
    rw [Nat.mod_eq_of_lt narrow] at width
    rw [width]
    simp only [full, or_false]
    constructor
    · intro inside last
      rw [World.scaled_last last] at inside
      omega
    · intro other
      have positive : 0 < max.toNat - min.toNat + 1 := Nat.succ_pos _
      have less := World.scaled_lt positive other
      omega

/-- For an index the promise is kept as long as the exact result stays below both
the number of keys and the largest `int`. -/
theorem indexKeeps_iff_scaled {total i : Nat} (round : i < total) (int : i < 2 ^ 31) :
    world.IndexKeeps total i ↔
      world.scaled ((total - i) % 2 ^ 32) + i < total ∧
        world.scaled ((total - i) % 2 ^ 32) + i < 2 ^ 31 := by
  have one : (1 : BitVec 32).toNat = 1 := rfl
  have width : (BitVec.ofNat 32 (total - 1) - BitVec.ofNat 32 i + 1).toNat =
      (total - i) % 2 ^ 32 := by
    rw [BitVec.toNat_add, BitVec.toNat_sub, BitVec.toNat_ofNat, BitVec.toNat_ofNat, one]
    omega
  have first : (BitVec.ofNat 32 i).toNat = i := by
    rw [BitVec.toNat_ofNat]
    omega
  have less := world.scaled_le ((total - i) % 2 ^ 32)
  have wrapped : (total - i) % 2 ^ 32 < 2 ^ 32 := Nat.mod_lt _ (by decide)
  simp only [World.IndexKeeps, World.run_randr, Except.ok.injEq, exists_eq_left', width, first,
    BitVec.toInt_ofNat']
  generalize world.scaled ((total - i) % 2 ^ 32) = distance at less ⊢
  rw [Int.bmod_def]
  omega

/-- What `RAND_MAX` does to an index.  With more keys than an `int` can count, the
conversion of the index gets in the way as well. -/
theorem indexKeeps_iff {total i : Nat} (round : i < total) (int : i < 2 ^ 31) :
    world.IndexKeeps total i ↔
      if total ≤ 2 ^ 31 then (world.choices 0).random.val ≠ randMax
      else (total - i) % 2 ^ 32 * (world.choices 0).random.val < (2 ^ 31 - i) * randMax := by
  rw [indexKeeps_iff_scaled round int]
  split
  · rename_i few
    rw [Nat.mod_eq_of_lt (by omega)]
    constructor
    · intro inside last
      rw [World.scaled_last last] at inside
      omega
    · intro other
      have positive : 0 < total - i := by omega
      have less := World.scaled_lt positive other
      omega
  · rw [← Nat.div_lt_iff_lt_mul (by decide), ← World.scaled]
    omega

/-- `randr` and the indices of the shuffle, for every outcome of `rand()`. -/
theorem World.randr_iff (world : World) {min max : BitVec 32} (ordered : min ≤ max)
    {total i : Nat} (round : i < total) (int : i < 2 ^ 31) :
    (world.RandrKeeps min max ↔
      (world.choices 0).random.val ≠ randMax ∨ (min = 0 ∧ max = BitVec.allOnes 32)) ∧
    (world.IndexKeeps total i ↔
      if total ≤ 2 ^ 31 then (world.choices 0).random.val ≠ randMax
      else (total - i) % 2 ^ 32 * (world.choices 0).random.val < (2 ^ 31 - i) * randMax) :=
  ⟨randrKeeps_iff ordered, indexKeeps_iff round int⟩

/-- The smallest draw. -/
theorem randr_start : World.start.RandrKeeps 3 9 ∧ World.start.IndexKeeps 10 3 := by
  have ordered : (3 : BitVec 32) ≤ 9 := by decide
  have round : 3 < 10 := by decide
  have keeps := World.start.randr_iff ordered round (by decide)
  exact ⟨keeps.1.mpr (.inl (by decide)), keeps.2.mpr (by decide)⟩

/-- A world whose generator returns `RAND_MAX`. -/
def lastDraw : World :=
  { World.start with choices := fun _ => { Choice.calm with random := Fin.last randMax } }

/-- The largest draw among ten is the eleventh. -/
theorem not_randr_lastDraw : ¬lastDraw.RandrKeeps 0 9 ∧ ¬lastDraw.IndexKeeps 10 0 := by
  have drawn : (lastDraw.run (randr 0 9)).1 = .ok 10 := rfl
  constructor
  · rintro ⟨result, ran, -, upper⟩
    cases drawn.symm.trans ran
    exact absurd upper (by decide)
  · rintro ⟨j, ran, -, upper⟩
    cases drawn.symm.trans ran
    exact absurd upper (by decide)

/-! ## Selections -/

/-- A shuffle of different keys rearranges them, and the keys it settles are any
selection whatsoever, each of them for exactly one sequence of indices. -/
theorem shuffle_unbiased {keys : List Bytes} (distinct : keys.Nodup) {count : Nat}
    (few : count ≤ keys.length) :
    (∀ indices ∈ Choices keys.length count, (exchanges 0 indices keys).Perm keys ∧
      ∀ world : World, world.Draws keys.length 0 indices →
        (world.run (shuffleFrom count 0 keys)).1 = .ok (exchanges 0 indices keys)) ∧
    Set.BijOn (fun indices => (exchanges 0 indices keys).take count)
      (Choices keys.length count) (Selections keys count) := by
  constructor
  · intro indices allowed
    refine ⟨exchanges_perm 0 indices keys, fun world draws => ?_⟩
    obtain ⟨counted, bounds⟩ := allowed
    subst counted
    have inside : ∀ j ∈ indices, j < keys.length := by
      intro j member
      obtain ⟨i, found⟩ := List.mem_iff_getElem?.mp member
      exact (bounds i j found).2
    obtain ⟨after, shuffles, -⟩ :=
      World.run_shuffleFrom_of_draws 0 (by rw [Nat.zero_add]; exact few) inside draws
    rw [shuffles]
  · exact bijOn_exchanges distinct few

/-- Three keys that a generator of zeros leaves in place. -/
def threeKeys : List Bytes := [ascii "a", ascii "b", ascii "c"]

theorem shuffle_unbiased_threeKeys :
    (World.start.run (shuffleFrom 2 0 threeKeys)).1 = .ok threeKeys ∧
      Set.BijOn (fun indices => (exchanges 0 indices threeKeys).take 2)
        (Choices 3 2) (Selections threeKeys 2) := by
  have distinct : threeKeys.Nodup := by decide
  have few : 2 ≤ threeKeys.length := by decide
  obtain ⟨shuffles, bijective⟩ := shuffle_unbiased distinct few
  have allowed : [0, 1] ∈ Choices 3 2 := by
    apply cons_mem_choices.mpr
    refine ⟨by decide, [0], ?_, rfl⟩
    apply cons_mem_choices.mpr
    exact ⟨by decide, [], ⟨rfl, nofun⟩, rfl⟩
  have draws : World.start.Draws 3 0 [0, 1] := by
    intro round j found
    match round with
    | 0 | 1 =>
        cases found
        rfl
    | round + 2 => cases found
  exact ⟨(shuffles [0, 1] allowed).2 .start draws, bijective⟩

end BtTracker
