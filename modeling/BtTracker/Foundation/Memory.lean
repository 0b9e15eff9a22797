import BtTracker.Foundation.ByteOrder

/-!
# Heap blocks with unwritten bytes

A block returned by an allocator has a length but no contents.  Each cell of a
`Block` is either a byte that some copy has written or `none`, and a copy that
would leave the block fails instead of being truncated.
-/

namespace BtTracker.Foundation

/-- A heap block; `none` marks a byte nobody has written. -/
abbrev Block := List (Option Byte)

namespace Block

/-- A fresh block of the given size. -/
def malloc (size : Nat) : Block := List.replicate size none

/-- The block that consists exactly of the given bytes. -/
def ofBytes (bytes : Bytes) : Block := bytes.map some

/-- Copy bytes to an offset of a block, if they fit. -/
def memcpy (block : Block) (offset : Nat) (bytes : Bytes) : Option Block :=
  if offset + bytes.length ≤ block.length then
    some (block.take offset ++ ofBytes bytes ++ block.drop (offset + bytes.length))
  else
    none

@[simp] theorem length_malloc (size : Nat) : (malloc size).length = size := by
  simp [malloc]

@[simp] theorem length_ofBytes (bytes : Bytes) :
    (ofBytes bytes).length = bytes.length := by
  simp [ofBytes]

@[simp] theorem ofBytes_append (left right : Bytes) :
    ofBytes (left ++ right) = ofBytes left ++ ofBytes right := by
  simp [ofBytes]

theorem malloc_add (first second : Nat) :
    malloc (first + second) = malloc first ++ malloc second := by
  simp only [malloc, List.replicate_add]

theorem ofBytes_injective : Function.Injective ofBytes :=
  List.map_injective_iff.mpr (Option.some_injective Byte)

/-- Writing right behind the written part of a block extends that part, whatever
stands behind the bytes that are still missing. -/
theorem memcpy_between (written bytes : Bytes) (offset size : Nat) (rest : Block)
    (position : offset = written.length) (room : bytes.length ≤ size) :
    memcpy (ofBytes written ++ (malloc size ++ rest)) offset bytes =
      some (ofBytes (written ++ bytes) ++ (malloc (size - bytes.length) ++ rest)) := by
  subst position
  obtain ⟨remaining, rfl⟩ := Nat.exists_eq_add_of_le room
  have fits : written.length + bytes.length ≤
      (ofBytes written ++ (malloc (bytes.length + remaining) ++ rest)).length := by
    simp only [List.length_append, length_ofBytes, length_malloc]
    omega
  rw [memcpy, if_pos fits]
  congr 1
  rw [List.take_left' (by simp), malloc_add, List.append_assoc (malloc bytes.length),
    ← List.append_assoc (ofBytes written), List.drop_left' (by simp), ofBytes_append,
    Nat.add_sub_cancel_left]

/-- Writers that fill a block from left to right are unrolled with this
equation. -/
theorem memcpy_behind (written bytes : Bytes) (offset size : Nat)
    (position : offset = written.length) (room : bytes.length ≤ size) :
    memcpy (ofBytes written ++ malloc size) offset bytes =
      some (ofBytes (written ++ bytes) ++ malloc (size - bytes.length)) := by
  have between := memcpy_between written bytes offset size [] position room
  rw [List.append_nil, List.append_nil] at between
  exact between

/-- The first write into a fresh block. -/
theorem memcpy_malloc (bytes : Bytes) (size : Nat) (room : bytes.length ≤ size) :
    memcpy (malloc size) 0 bytes = some (ofBytes bytes ++ malloc (size - bytes.length)) :=
  memcpy_behind [] bytes 0 size rfl room

@[simp] theorem malloc_zero : malloc 0 = [] := rfl

end Block

/-- Fields of equal size are found at multiples of that size. -/
theorem take_drop_flatMap {α β : Type} {field : α → List β} {size : Nat}
    (sized : ∀ value, (field value).length = size) {values : List α} {k : Nat}
    (inside : k < values.length) (rest : List β) :
    ((values.flatMap field ++ rest).drop (k * size)).take size = field values[k] := by
  induction values generalizing k with
  | nil => cases inside
  | cons value values ih =>
      rw [List.flatMap_cons, List.append_assoc]
      cases k with
      | zero => rw [Nat.zero_mul, List.drop_zero, List.take_left' (sized value), List.getElem_cons_zero]
      | succ k =>
          rw [Nat.succ_mul, Nat.add_comm, ← List.drop_drop, List.drop_left' (sized value),
            List.getElem_cons_succ]
          exact ih (by simpa using inside)

end BtTracker.Foundation
