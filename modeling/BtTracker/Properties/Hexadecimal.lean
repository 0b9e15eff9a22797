import BtTracker.Correctness.Keys

/-!
# Texts of byte arrays

`bt_bytearray_to_hexarray` writes two digits for every byte, at positions it
computes from an `int` index.  What it writes can be read back, so no two info
hashes share a text, and all keys and list members that are built from these
texts keep torrents apart.  Doubling the index is what limits the size of the
array.
-/

namespace BtTracker

open BtTracker.Foundation

/-! ## The loop -/

/-- Invariant of the loop: the digits of the bytes so far are written, there is
room for those of the remaining ones, and the terminator stands behind it. -/
theorem hexarrayFrom_eq (bin written : Bytes) (i : Nat) (position : written.length = i * 2)
    (small : i + bin.length ≤ 2 ^ 30) :
    hexarrayFrom i (Block.ofBytes written ++ (Block.malloc (bin.length * 2) ++ [some 0])) bin =
      some (Block.ofBytes (written ++ bin.flatMap hexDigits) ++ [some 0]) := by
  induction bin generalizing written i with
  | nil => simp [hexarrayFrom]
  | cons byte rest ih =>
      rw [List.length_cons] at small
      have high : intValue (i * 2) = some (i * 2) := if_pos (by omega)
      have low : intValue (i * 2 + 1) = some (i * 2 + 1) := if_pos (by omega)
      have remaining : (rest.length + 1) * 2 - 1 - 1 = rest.length * 2 := by omega
      simp only [hexarrayFrom, high, low, Option.bind_eq_bind, Option.bind_some, List.length_cons]
      rw [Block.memcpy_between _ _ _ _ _ position.symm (by simp; omega), Option.bind_some,
        Block.memcpy_between _ _ _ _ _ (by simp [position]) (by simp; omega), Option.bind_some]
      simp only [List.length_singleton, remaining, List.append_assoc written]
      rw [ih _ (i + 1) (by simp [position]; omega) (by omega), List.flatMap_cons,
        List.append_assoc written]
      rfl

/-- At the index whose double is no `int` the loop goes astray. -/
theorem hexarrayFrom_eq_none (bin : Bytes) (result : Block) (i : Nat) (start : i ≤ 2 ^ 30)
    (large : 2 ^ 30 < i + bin.length) : hexarrayFrom i result bin = none := by
  induction bin generalizing result i with
  | nil =>
      rw [List.length_nil] at large
      omega
  | cons byte rest ih =>
      rw [List.length_cons] at large
      rw [hexarrayFrom]
      by_cases last : i = 2 ^ 30
      · have overflows : intValue (i * 2) = none := if_neg (by omega)
        rw [overflows]
        rfl
      · simp only [Option.bind_eq_bind, ih _ (i + 1) (by omega) (by omega), Option.bind_fun_none]

/-- What the code fills in, for every array whose size allows it. -/
theorem fillHexarray_eq {bin : Bytes} (small : bin.length ≤ 2 ^ 30) :
    fillHexarray bin = some (.ofBytes (btBytearrayToHexarray bin)) := by
  have terminated : (Block.malloc (bin.length * 2 + 1)).memcpy (bin.length * 2) [0] =
      some (Block.malloc (bin.length * 2) ++ [some 0]) := by
    rw [Block.memcpy, if_pos (by simp), Block.malloc_add, List.take_left' (by simp),
      List.drop_of_length_le (by simp), List.append_nil]
    rfl
  have filled := hexarrayFrom_eq bin [] 0 rfl (by omega)
  rw [fillHexarray, terminated, Option.bind_eq_bind, Option.bind_some]
  rw [btBytearrayToHexarray, Block.ofBytes_append]
  exact filled

theorem fillHexarray_eq_none {bin : Bytes} (large : 2 ^ 30 < bin.length) :
    fillHexarray bin = none := by
  rw [fillHexarray]
  simp only [Option.bind_eq_bind, hexarrayFrom_eq_none bin _ 0 (by omega) (by omega),
    Option.bind_fun_none]

/-! ## What the digits tell -/

/-- The array is filled with two lowercase digits for every byte and a terminator
behind them, and the digits give the bytes back. -/
def Converted (bin : Bytes) : Prop :=
  ∃ digits, fillHexarray bin = some (.ofBytes (digits ++ [0])) ∧
    digits.length = 2 * bin.length ∧ digits ⊆ hexStr ∧ 0 ∉ digits ∧ readHex digits = bin

/-- Two info hashes with the same text, or with keys or list members built from
it that coincide, are the same. -/
structure Separated (host : Host) (config : BtConfig) (left right : Octets 20) : Prop where
  member : infoHashText left = infoHashText right → left = right
  counter : infoHashKey config (infoHashText left) = infoHashKey config (infoHashText right) →
    left = right
  peer : ∀ leftSeeder rightSeeder leftPeer rightPeer,
    peerKey config (infoHashText left) leftSeeder leftPeer =
      peerKey config (infoHashText right) rightSeeder rightPeer → left = right

theorem converted_of_small {bin : Bytes} (small : bin.length ≤ 2 ^ 30) : Converted bin := by
  have digits := flatMap_hexDigits_subset bin
  refine ⟨bin.flatMap hexDigits, fillHexarray_eq small, length_flatMap_hexDigits bin, digits,
    fun terminator => ?_, readHex_flatMap bin⟩
  exact absurd (digits terminator) (by decide)

theorem separated (host : Host) (config : BtConfig) (left right : Octets 20) :
    Separated host config left right := by
  constructor
  · exact fun equal => infoHashText_injective equal
  · intro equal
    have same : KeyName.torrent left = .torrent right :=
      KeyName.encode_injective host config equal
    cases same
    rfl
  · intro leftSeeder rightSeeder leftPeer rightPeer equal
    have same : KeyName.peer left leftSeeder leftPeer = .peer right rightSeeder rightPeer :=
      KeyName.encode_injective host config equal
    cases same
    rfl

/-- An array is converted as long as twice its last index is an `int`, and info
hashes are kept apart. -/
theorem converted_iff (bin : Bytes) (host : Host) (config : BtConfig) (left right : Octets 20) :
    (Converted bin ↔ bin.length ≤ 2 ^ 30) ∧ Separated host config left right := by
  refine ⟨⟨?_, converted_of_small⟩, separated host config left right⟩
  rintro ⟨digits, filled, -⟩
  by_contra large
  rw [fillHexarray_eq_none (by omega)] at filled
  cases filled

/-- One byte more than that. -/
theorem not_converted_large :
    (List.replicate (2 ^ 30 + 1) (0 : Byte)).length ≤ 2 ^ 31 - 1 ∧
      ¬Converted (List.replicate (2 ^ 30 + 1) 0) := by
  constructor
  · rw [List.length_replicate]
    decide
  · rintro ⟨digits, filled, -⟩
    rw [fillHexarray_eq_none (by rw [List.length_replicate]; decide)] at filled
    cases filled

end BtTracker
