import Mathlib.Data.List.Basic
import Mathlib.Tactic.Ring

/-!
# Machine words as bytes

A word of `width` bits occupies `width / 8` bytes of memory, in an order that
depends on the host.  This module relates words to byte strings through their
little-endian value, so that one pair of round-trip lemmas serves every width
and both byte orders.
-/

namespace BtTracker.Foundation

/-- One octet of memory or of a datagram. -/
abbrev Byte := BitVec 8

/-- A byte string of any length. -/
abbrev Bytes := List Byte

/-- The bytes of an ASCII text, without a terminator. -/
def ascii (text : String) : Bytes :=
  text.toList.map fun character => BitVec.ofNat 8 character.toNat

/-- Value of a byte string read least significant byte first. -/
def ofLittle : Bytes → Nat
  | [] => 0
  | byte :: rest => byte.toNat + 256 * ofLittle rest

/-- The `count` least significant bytes of a number, least significant first. -/
def toLittle : (count value : Nat) → Bytes
  | 0, _ => []
  | count + 1, value => BitVec.ofNat 8 value :: toLittle count (value / 256)

@[simp] theorem length_toLittle (count value : Nat) :
    (toLittle count value).length = count := by
  induction count generalizing value with
  | zero => rfl
  | succ count ih => simp [toLittle, ih]

theorem ofLittle_lt (bytes : Bytes) : ofLittle bytes < 256 ^ bytes.length := by
  induction bytes with
  | nil => simp [ofLittle]
  | cons byte rest ih =>
      have byteLt := byte.isLt
      simp only [ofLittle, List.length_cons, pow_succ]
      omega

theorem toLittle_ofLittle (bytes : Bytes) :
    toLittle bytes.length (ofLittle bytes) = bytes := by
  induction bytes with
  | nil => rfl
  | cons byte rest ih =>
      have byteLt := byte.isLt
      have tailValue : (byte.toNat + 256 * ofLittle rest) / 256 = ofLittle rest := by
        omega
      have headValue : BitVec.ofNat 8 (byte.toNat + 256 * ofLittle rest) = byte := by
        apply BitVec.eq_of_toNat_eq
        rw [BitVec.toNat_ofNat]
        omega
      simp only [List.length_cons, ofLittle, toLittle]
      rw [tailValue, headValue, ih]

theorem ofLittle_toLittle (count value : Nat) :
    ofLittle (toLittle count value) = value % 256 ^ count := by
  induction count generalizing value with
  | zero => simp [toLittle, ofLittle, Nat.mod_one]
  | succ count ih =>
      have byteValue : (BitVec.ofNat 8 value).toNat = value % 256 := by
        simp [BitVec.toNat_ofNat]
      rw [toLittle, ofLittle, byteValue, ih, pow_succ', Nat.mod_mul]

theorem ofLittle_append (first second : Bytes) :
    ofLittle (first ++ second) = ofLittle first + 256 ^ first.length * ofLittle second := by
  induction first with
  | nil => simp [ofLittle]
  | cons byte rest ih =>
      simp only [List.cons_append, ofLittle, List.length_cons, ih, pow_succ]
      ring

/-- The order in which a host lays the bytes of a word in memory. -/
inductive ByteOrder where
  | little
  | big
  deriving DecidableEq, Repr

namespace ByteOrder

/-- Reorder a byte string between memory order and least significant first.
The map is its own inverse. -/
def arrange : ByteOrder → Bytes → Bytes
  | little, bytes => bytes
  | big, bytes => bytes.reverse

@[simp] theorem length_arrange (order : ByteOrder) (bytes : Bytes) :
    (order.arrange bytes).length = bytes.length := by
  cases order <;> simp [arrange]

@[simp] theorem arrange_arrange (order : ByteOrder) (bytes : Bytes) :
    order.arrange (order.arrange bytes) = bytes := by
  cases order <;> simp [arrange]

/-- Read a word of `width` bits from memory. -/
def load (order : ByteOrder) (width : Nat) (bytes : Bytes) : BitVec width :=
  BitVec.ofNat width (ofLittle (order.arrange bytes))

/-- The memory image of a word. -/
def store (order : ByteOrder) {width : Nat} (word : BitVec width) : Bytes :=
  order.arrange (toLittle (width / 8) word.toNat)

@[simp] theorem length_store (order : ByteOrder) {width : Nat} (word : BitVec width) :
    (order.store word).length = width / 8 := by
  simp [store]

private theorem pow_bytes {width : Nat} (whole : 8 * (width / 8) = width) :
    256 ^ (width / 8) = 2 ^ width := by
  calc 256 ^ (width / 8) = (2 ^ 8) ^ (width / 8) := by norm_num
    _ = 2 ^ (8 * (width / 8)) := by rw [← pow_mul]
    _ = 2 ^ width := by rw [whole]

theorem load_store (order : ByteOrder) {width : Nat} (word : BitVec width)
    (whole : 8 * (width / 8) = width) :
    order.load width (order.store word) = word := by
  apply BitVec.eq_of_toNat_eq
  have wordLt := word.isLt
  rw [load, store, arrange_arrange, ofLittle_toLittle, pow_bytes whole,
    BitVec.toNat_ofNat, Nat.mod_mod, Nat.mod_eq_of_lt wordLt]

theorem store_load (order : ByteOrder) {width : Nat} (bytes : Bytes)
    (whole : 8 * (width / 8) = width) (length : bytes.length = width / 8) :
    order.store (order.load width bytes) = bytes := by
  have valueLt := ofLittle_lt (order.arrange bytes)
  rw [length_arrange, length, pow_bytes whole] at valueLt
  rw [store, load, BitVec.toNat_ofNat, Nat.mod_eq_of_lt valueLt]
  have count : width / 8 = (order.arrange bytes).length := by simp [length]
  rw [count, toLittle_ofLittle, arrange_arrange]

/-- A word is determined by its memory image. -/
theorem store_injective (order : ByteOrder) {width : Nat}
    (whole : 8 * (width / 8) = width) :
    Function.Injective (order.store : BitVec width → Bytes) := by
  intro left right equal
  rw [← load_store order left whole, equal, load_store order right whole]

/-- A word was read from its memory image and from no other string. -/
theorem eq_load_iff (order : ByteOrder) {width : Nat} {word : BitVec width} {bytes : Bytes}
    (whole : 8 * (width / 8) = width) (length : bytes.length = width / 8) :
    word = order.load width bytes ↔ bytes = order.store word := by
  constructor
  · intro loaded
    rw [loaded, store_load order bytes whole length]
  · intro stored
    rw [stored, load_store order word whole]

/-- A big-endian value is the value of the first bytes in front of that of the
others. -/
theorem load_big_append {high low : Nat} {first second : Bytes}
    (wholeHigh : 8 * (high / 8) = high) (wholeLow : 8 * (low / 8) = low)
    (firstLength : first.length = high / 8) (secondLength : second.length = low / 8) :
    big.load (high + low) (first ++ second) = big.load high first ++ big.load low second := by
  have firstLt := ofLittle_lt first.reverse
  have secondLt := ofLittle_lt second.reverse
  rw [List.length_reverse, firstLength, pow_bytes wholeHigh] at firstLt
  rw [List.length_reverse, secondLength, pow_bytes wholeLow] at secondLt
  have power : 256 ^ second.reverse.length = 2 ^ low := by
    rw [List.length_reverse, secondLength, pow_bytes wholeLow]
  have fits : ofLittle first.reverse * 2 ^ low + ofLittle second.reverse < 2 ^ (high + low) := by
    calc ofLittle first.reverse * 2 ^ low + ofLittle second.reverse
        < (ofLittle first.reverse + 1) * 2 ^ low := by
          rw [Nat.succ_mul]
          exact Nat.add_lt_add_left secondLt _
      _ ≤ 2 ^ high * 2 ^ low := Nat.mul_le_mul_right _ firstLt
      _ = 2 ^ (high + low) := (pow_add ..).symm
  apply BitVec.eq_of_toNat_eq
  simp only [load, arrange, List.reverse_append, ofLittle_append, power, BitVec.toNat_append,
    BitVec.toNat_ofNat, Nat.mod_eq_of_lt firstLt, Nat.mod_eq_of_lt secondLt]
  rw [← Nat.shiftLeft_add_eq_or_of_lt secondLt, Nat.shiftLeft_eq, Nat.add_comm, Nat.mul_comm,
    Nat.mod_eq_of_lt fits]

end ByteOrder

/-- Reverse the bytes of a word. -/
def byteSwap {width : Nat} (word : BitVec width) : BitVec width :=
  ByteOrder.big.load width (ByteOrder.little.store word)

theorem byteSwap_load_little {width : Nat} (bytes : Bytes)
    (whole : 8 * (width / 8) = width) (length : bytes.length = width / 8) :
    byteSwap (ByteOrder.little.load width bytes) = ByteOrder.big.load width bytes := by
  rw [byteSwap, ByteOrder.store_load _ bytes whole length]

theorem byteSwap_load_big {width : Nat} (bytes : Bytes)
    (whole : 8 * (width / 8) = width) (length : bytes.length = width / 8) :
    byteSwap (ByteOrder.big.load width bytes) = ByteOrder.little.load width bytes := by
  have backwards : ByteOrder.big.load width bytes =
      ByteOrder.little.load width bytes.reverse := rfl
  rw [backwards, byteSwap_load_little _ whole (by rw [List.length_reverse, length])]
  simp only [ByteOrder.load, ByteOrder.arrange, List.reverse_reverse]

theorem byteSwap_byteSwap {width : Nat} (word : BitVec width)
    (whole : 8 * (width / 8) = width) : byteSwap (byteSwap word) = word := by
  have reversed : ByteOrder.little.store (byteSwap word) =
      (ByteOrder.little.store word).reverse := by
    have lists : byteSwap word =
        ByteOrder.little.load width (ByteOrder.little.store word).reverse := rfl
    rw [lists, ByteOrder.store_load _ _ whole (by simp)]
  have restored : byteSwap (byteSwap word) =
      ByteOrder.little.load width (ByteOrder.little.store (byteSwap word)).reverse := rfl
  rw [restored, reversed, List.reverse_reverse, ByteOrder.load_store _ _ whole]

end BtTracker.Foundation
