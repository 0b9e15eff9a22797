import BtTracker.Model.Worker

/-!
# Random numbers

`random.c`.  The scaling of `randr` is taken in exact arithmetic.
-/

namespace BtTracker

open BtTracker.Foundation

def rand : Worker (Fin (randMax + 1)) := perform Op.rand

/-- The low-order byte `(char) ((rand() & 0x0FF0) >> 4)`. -/
def randomByte (value : Fin (randMax + 1)) : Byte := BitVec.ofNat 8 (value.val / 16)

/-- Draw the bytes of a random word, first byte in memory first. -/
def randomBytes : Nat → Worker Bytes
  | 0 => pure []
  | count + 1 => do
      let value ← rand
      let rest ← randomBytes count
      pure (randomByte value :: rest)

def btRandomInt64 (host : Host) : Worker (BitVec 64) := do
  let bytes ← randomBytes 8
  pure (host.order.load 64 bytes)

/-- `(max - min + 1) * scaled + min`, where `scaled` is `value / RAND_MAX`. -/
def scaleRandom (min max : BitVec 32) (value : Fin (randMax + 1)) : BitVec 32 :=
  BitVec.ofNat 32 ((max - min + 1).toNat * value.val / randMax + min.toNat)

def randr (min max : BitVec 32) : Worker (BitVec 32) := do
  let value ← rand
  pure (scaleRandom min max value)

end BtTracker
