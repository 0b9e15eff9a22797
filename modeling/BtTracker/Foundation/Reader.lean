import BtTracker.Foundation.ByteOrder

/-!
# Reading big-endian messages

A reader consumes a prefix of a byte string.  Messages are sequences of words in
network order, possibly followed by any number of records of the same shape, and
reading what was written that way gives the fields back.
-/

namespace BtTracker.Foundation

/-- A partial function that consumes a prefix of its input. -/
abbrev Reader (α : Type) := Bytes → Option (α × Bytes)

namespace Reader

variable {α β : Type}

/-- The reader that consumes nothing. -/
def pure (value : α) : Reader α := fun input => some (value, input)

/-- Read one thing after the other. -/
def bind (first : Reader α) (rest : α → Reader β) : Reader β := fun input =>
  (first input).bind fun (value, remaining) => rest value remaining

instance : Monad Reader where
  pure := pure
  bind := bind

/-- A word of `width` bits in network order. -/
def word (width : Nat) : Reader (BitVec width) := fun input =>
  if width / 8 ≤ input.length then
    some (ByteOrder.big.load width (input.take (width / 8)), input.drop (width / 8))
  else
    none

/-- As many records as there are, the last one ending with the input.  A record
that consumes nothing would not end; the fuel is the length of the input. -/
def manyWithin (item : Reader α) : (fuel : Nat) → Bytes → Option (List α)
  | _, [] => some []
  | 0, _ :: _ => none
  | fuel + 1, byte :: input =>
      match item (byte :: input) with
      | none => none
      | some (value, remaining) => (value :: ·) <$> manyWithin item fuel remaining

/-- As many records as there are, up to the end of the input. -/
def many (item : Reader α) : Reader (List α) := fun input =>
  (manyWithin item input.length input).map (·, [])

/-- Read a whole message. -/
def decode (reader : Reader α) (message : Bytes) : Option α :=
  match reader message with
  | some (value, []) => some value
  | _ => none

/-- A reader that gives back what an encoder wrote, whatever follows. -/
def Reads (reader : Reader α) (encode : α → Bytes) : Prop :=
  ∀ value rest, reader (encode value ++ rest) = some (value, rest)

@[simp] theorem pure_apply (value : α) (input : Bytes) :
    (Pure.pure value : Reader α) input = some (value, input) := rfl

theorem bind_apply_of_some {first : Reader α} {rest : α → Reader β} {input remaining : Bytes}
    {value : α} (read : first input = some (value, remaining)) :
    (first >>= rest) input = rest value remaining := by
  change (first input).bind _ = _
  rw [read]
  rfl

theorem word_reads {width : Nat} (whole : 8 * (width / 8) = width) :
    Reads (word width) ByteOrder.big.store := by
  intro value rest
  have enough : width / 8 ≤ (ByteOrder.big.store value ++ rest).length := by simp
  rw [word, if_pos enough, List.take_left' (by simp), List.drop_left' (by simp),
    ByteOrder.load_store _ _ whole]

/-- Reading a word that was written, and going on behind it. -/
@[simp] theorem word_bind_apply {width : Nat} (whole : 8 * (width / 8) = width)
    (value : BitVec width) (rest : Bytes) (next : BitVec width → Reader β) :
    (word width >>= next) (ByteOrder.big.store value ++ rest) = next value rest :=
  bind_apply_of_some (word_reads whole value rest)

theorem manyWithin_flatMap {item : Reader α} {encode : α → Bytes} (reads : Reads item encode)
    (nonempty : ∀ value, encode value ≠ []) (values : List α) {fuel : Nat}
    (enough : values.length ≤ fuel) :
    manyWithin item fuel (values.flatMap encode) = some values := by
  induction values generalizing fuel with
  | nil =>
      cases fuel <;> rfl
  | cons value values ih =>
      cases fuel with
      | zero => simp at enough
      | succ fuel =>
          have read := reads value (values.flatMap encode)
          rw [List.flatMap_cons]
          cases encoded : encode value with
          | nil => exact absurd encoded (nonempty value)
          | cons byte bytes =>
              rw [encoded] at read
              simp only [List.cons_append] at read ⊢
              simp only [manyWithin, read]
              rw [ih (by simpa using enough)]
              rfl

theorem many_flatMap {item : Reader α} {encode : α → Bytes} (reads : Reads item encode)
    (nonempty : ∀ value, encode value ≠ []) (values : List α) :
    many item (values.flatMap encode) = some (values, []) := by
  have enough : values.length ≤ (values.flatMap encode).length := by
    induction values with
    | nil => simp
    | cons value values ih =>
        have positive := List.length_pos_iff.mpr (nonempty value)
        simp only [List.flatMap_cons, List.length_append, List.length_cons]
        omega
  rw [many, manyWithin_flatMap reads nonempty values enough]
  rfl

theorem decode_of_apply {reader : Reader α} {message : Bytes} {value : α}
    (read : reader message = some (value, [])) : decode reader message = some value := by
  rw [decode, read]

end Reader

end BtTracker.Foundation
