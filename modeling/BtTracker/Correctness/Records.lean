import BtTracker.Correctness.Update

/-!
# Records up to their last bytes

`bt_new_peer` writes the members of a record and leaves the six bytes behind the last
one as `malloc` handed them out, and all of them are stored.  Databases that differ in
nothing else match, and an announce keeps them matching, whatever `malloc` does.
-/

namespace BtTracker

open BtTracker.Foundation

/-- An entry with the bytes behind the members of a record cleared. -/
def Redis.Entry.written (entry : Redis.Entry) : Redis.Entry :=
  match entry.value with
  | .string text =>
      if text.length = 40 then
        { entry with value := .string (text.take 34 ++ List.replicate 6 0) }
      else entry
  | _ => entry

namespace Redis.Store

/-- Databases that agree up to the bytes behind the members of the records under some
keys. -/
structure Matches (filed : Bytes → Prop) (left right : Store) : Prop where
  now : left.now = right.now
  others : ∀ key, ¬filed key → left.find? key = right.find? key
  records : ∀ key, filed key →
    (left.find? key).map Entry.written = (right.find? key).map Entry.written

namespace Matches

variable {filed : Bytes → Prop} {left right : Store}

theorem refl (filed : Bytes → Prop) (store : Store) : store.Matches filed store :=
  ⟨rfl, fun _ _ => rfl, fun _ _ => rfl⟩

theorem symm (same : left.Matches filed right) : right.Matches filed left :=
  ⟨same.now.symm, fun key other => (same.others key other).symm,
    fun key record => (same.records key record).symm⟩

theorem trans {last : Store} (first : left.Matches filed right)
    (second : right.Matches filed last) : left.Matches filed last :=
  ⟨first.now.trans second.now,
    fun key other => (first.others key other).trans (second.others key other),
    fun key record => (first.records key record).trans (second.records key record)⟩

/-- They hold entries under the same keys. -/
theorem isSome_eq (same : left.Matches filed right) (key : Bytes) :
    (left.find? key).isSome = (right.find? key).isSome := by
  by_cases record : filed key
  · have mapped := congrArg Option.isSome (same.records key record)
    rwa [Option.isSome_map, Option.isSome_map] at mapped
  · rw [same.others key record]

/-- Commands that write no records. -/
theorem after_of_not_filed (same : left.Matches filed right) {command : Command}
    (aside : ∀ key ∈ command.writes, ¬filed key) :
    (left.after command).Matches filed (right.after command) := by
  refine ⟨by rw [now_after, now_after, same.now], fun key other => ?_, fun key record => ?_⟩
  · by_cases written : key ∈ command.writes
    · exact find?_after_congr ⟨same.now, fun key written => same.others key (aside key written)⟩
        written
    · rw [find?_after_of_not_mem_writes _ written, find?_after_of_not_mem_writes _ written,
        same.others key other]
  · have untouched : key ∉ command.writes := fun written => aside key written record
    rw [find?_after_of_not_mem_writes _ untouched, find?_after_of_not_mem_writes _ untouched,
      same.records key record]

/-- A record that is moved is moved with all of its bytes. -/
theorem after_rename (same : left.Matches filed right) {source target : Bytes}
    (filedSource : filed source) (filedTarget : filed target) :
    (left.after (.rename source target)).Matches filed (right.after (.rename source target)) := by
  have moved := same.records source filedSource
  cases found : left.find? source with
  | none =>
      have missing : right.find? source = none := by
        rw [found] at moved
        exact Option.map_eq_none_iff.mp moved.symm
      rw [after_rename_of_none _ found, after_rename_of_none _ missing]
      exact same
  | some entry =>
      obtain ⟨other, foundToo, written⟩ : ∃ other, right.find? source = some other ∧
          other.written = entry.written := by
        rw [found] at moved
        exact Option.map_eq_some_iff.mp moved.symm
      refine ⟨by rw [now_after, now_after, same.now], fun key aside => ?_, fun key record => ?_⟩
      · have notTarget : target ≠ key := fun equal => aside (equal ▸ filedTarget)
        have notSource : source ≠ key := fun equal => aside (equal ▸ filedSource)
        rw [find?_after_rename _ _ found, find?_after_rename _ _ foundToo, if_neg notTarget,
          if_neg notTarget, if_neg notSource, if_neg notSource, same.others key aside]
      · rw [find?_after_rename _ _ found, find?_after_rename _ _ foundToo]
        split
        · rw [Option.map_some, Option.map_some, written]
        · split
          · rfl
          · exact same.records key record

end Matches

end Redis.Store

namespace Datagram

variable {host : Host} {config : BtConfig} {datagram : Datagram} {filed : Bytes → Prop}
  {left right : Redis.Store}

/-- Two records of an announce have the same members. -/
theorem written_entryAt (padding other : Octets 6) (moment : Nat) :
    (datagram.entryAt host config padding moment).written =
      (datagram.entryAt host config other moment).written := by
  have cut (padding : Octets 6) : (datagram.entryAt host config padding moment).written =
      { datagram.entryAt host config padding moment with
        value := .string (((datagram.record host padding).image host).take 34 ++
          List.replicate 6 0) } :=
    if_pos (by simp [BtPeer.image])
  have members : ((datagram.record host padding).image host).take 34 =
      ((datagram.record host other).image host).take 34 := by
    rw [BtPeer.image, BtPeer.image, List.take_left' (by simp), List.take_left' (by simp)]
    rfl
  rw [cut, cut, members]
  rfl

/-- The records an announce may write, and the counter it may increment. -/
theorem update_matches (own : ∀ isSeeder, filed (datagram.recordKey host config isSeeder))
    (counter : ¬filed (datagram.torrentKey host config)) (same : left.Matches filed right)
    (padding other : Octets 6) :
    (datagram.update host config padding left).Matches filed
      (datagram.update host config other right) := by
  have inserted (registers : datagram.Registers host) :
      (datagram.update host config padding left).Matches filed
        (datagram.update host config other right) := by
    refine ⟨by rw [now_update, now_update, same.now], fun key aside => ?_, fun key record => ?_⟩
    · have notRecord : datagram.recordKey host config (datagram.isSeeder host) ≠ key :=
        fun equal => aside (equal ▸ own _)
      rw [find?_update_of_registers registers, find?_update_of_registers registers,
        if_neg fun both => notRecord both.2, if_neg fun both => notRecord both.2,
        same.others key aside]
    · rw [find?_update_of_registers registers, find?_update_of_registers registers, same.now]
      split
      · rw [Option.map_some, Option.map_some, written_entryAt]
      · exact same.records key record
  cases event : datagram.event host with
  | none =>
      rw [update, update, event]
      exact same
  | some kind =>
      cases kind with
      | none => exact inserted (.inl event)
      | started => exact inserted (.inr event)
      | stopped =>
          refine ⟨by rw [now_update, now_update, same.now], fun key aside => ?_,
            fun key record => ?_⟩
          · rw [find?_update_of_stopped event, find?_update_of_stopped event,
              same.others key aside]
          · rw [find?_update_of_stopped event, find?_update_of_stopped event]
            split
            · rfl
            · exact same.records key record
      | completed =>
          have promotes := same.after_rename (own false) (own true)
          rw [update, update, event]
          dsimp only
          rw [same.isSome_eq]
          split
          · refine promotes.after_of_not_filed fun key written => ?_
            rw [List.mem_singleton.mp written]
            exact counter
          · exact same

end Datagram

end BtTracker
