import BtTracker.Foundation.ByteOrder
import Mathlib.Data.Finset.Card

/-!
# A Redis database

The keyspace of one database together with the server's clock, in seconds.  An
entry whose deadline has passed is gone: no command can observe it.  Stores are
extensional, so two of them are equal as soon as they agree on the clock and on
every key.
-/

namespace BtTracker.Redis

open BtTracker.Foundation

instance : Std.TransOrd Bytes := inferInstance

/-- Values of the types the modelled commands work on. -/
inductive Value where
  | string (text : Bytes)
  | hash (fields : Std.ExtTreeMap Bytes Bytes)
  | set (members : Std.ExtTreeSet Bytes)

/-- A value with the moment it expires, if it does. -/
structure Entry where
  value : Value
  expiresAt : Option Nat

/-- Whether an entry still exists at the given moment. -/
def Entry.aliveAt (moment : Nat) (entry : Entry) : Bool :=
  match entry.expiresAt with
  | none => true
  | some deadline => decide (moment < deadline)

/-- A database and the server's clock. -/
structure Store where
  now : Nat
  entries : Std.ExtTreeMap Bytes Entry

namespace Store

/-- A freshly started server. -/
def empty : Store := ⟨0, ∅⟩

/-- The entry stored under a key. -/
def find? (store : Store) (key : Bytes) : Option Entry := store.entries[key]?

/-- Store an entry under a key, replacing what was there. -/
def put (store : Store) (key : Bytes) (entry : Entry) : Store :=
  { store with entries := store.entries.insert key entry }

/-- Remove a key. -/
def erase (store : Store) (key : Bytes) : Store :=
  { store with entries := store.entries.erase key }

/-- Let time pass; entries whose deadline is reached disappear. -/
def advance (store : Store) (seconds : Nat) : Store where
  now := store.now + seconds
  entries := store.entries.filter fun _ entry => entry.aliveAt (store.now + seconds)

/-- All keys of the database, each once. -/
def keys (store : Store) : List Bytes := store.entries.keys

@[ext] theorem ext {left right : Store} (sameNow : left.now = right.now)
    (sameEntries : ∀ key, left.find? key = right.find? key) : left = right := by
  cases left with
  | mk leftNow leftEntries =>
      cases right with
      | mk rightNow rightEntries =>
          have entries : leftEntries = rightEntries :=
            Std.ExtTreeMap.ext_getElem? fun {key} => sameEntries key
          cases sameNow
          cases entries
          rfl

@[simp] theorem now_put (store : Store) (key : Bytes) (entry : Entry) :
    (store.put key entry).now = store.now := rfl

@[simp] theorem now_erase (store : Store) (key : Bytes) :
    (store.erase key).now = store.now := rfl

@[simp] theorem now_advance (store : Store) (seconds : Nat) :
    (store.advance seconds).now = store.now + seconds := rfl

@[simp] theorem find?_empty (key : Bytes) : empty.find? key = none := by
  simp [find?, empty]

theorem find?_put (store : Store) (key other : Bytes) (entry : Entry) :
    (store.put key entry).find? other =
      if key = other then some entry else store.find? other := by
  simp [find?, put, Std.ExtTreeMap.getElem?_insert]

@[simp] theorem find?_put_self (store : Store) (key : Bytes) (entry : Entry) :
    (store.put key entry).find? key = some entry := by
  simp [find?_put]

theorem find?_put_of_ne (store : Store) {key other : Bytes} (entry : Entry)
    (different : key ≠ other) :
    (store.put key entry).find? other = store.find? other := by
  simp [find?_put, different]

theorem find?_erase (store : Store) (key other : Bytes) :
    (store.erase key).find? other = if key = other then none else store.find? other := by
  simp [find?, erase, Std.ExtTreeMap.getElem?_erase]

@[simp] theorem find?_erase_self (store : Store) (key : Bytes) :
    (store.erase key).find? key = none := by
  simp [find?_erase]

theorem find?_erase_of_ne (store : Store) {key other : Bytes} (different : key ≠ other) :
    (store.erase key).find? other = store.find? other := by
  simp [find?_erase, different]

theorem find?_advance (store : Store) (seconds : Nat) (key : Bytes) :
    (store.advance seconds).find? key =
      (store.find? key).filter (Entry.aliveAt (store.now + seconds)) := by
  simp [find?, advance, Std.ExtTreeMap.getElem?_filter]

/-- Time only removes entries. -/
theorem find?_of_find?_advance {store : Store} {seconds : Nat} {key : Bytes} {entry : Entry}
    (found : (store.advance seconds).find? key = some entry) :
    store.find? key = some entry ∧ entry.aliveAt (store.now + seconds) = true := by
  rw [find?_advance, Option.filter_eq_some_iff] at found
  exact found

theorem mem_keys {store : Store} {key : Bytes} :
    key ∈ store.keys ↔ ∃ entry, store.find? key = some entry := by
  rw [keys, Std.ExtTreeMap.mem_keys, Std.ExtTreeMap.mem_iff_isSome_getElem?,
    Option.isSome_iff_exists]
  rfl

theorem nodup_keys (store : Store) : store.keys.Nodup := Std.ExtTreeMap.nodup_keys

end Store

end BtTracker.Redis
