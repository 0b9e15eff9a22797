import BtTracker.Redis.Store
import BtTracker.Foundation.Decimal
import BtTracker.Foundation.Glob

/-!
# Redis commands

The effect and the reply of each command the tracker sends, as the server
documents them.  The order in which `KEYS` lists its matches is unspecified, so
it is a parameter of the execution.
-/

namespace BtTracker.Redis

open BtTracker.Foundation

/-- The commands in use. -/
inductive Command where
  | ping
  | select (database : Nat)
  | setex (key : Bytes) (seconds : Int) (value : Bytes)
  | get (key : Bytes)
  | del (key : Bytes)
  | rename (source target : Bytes)
  | hincrby (key field : Bytes) (increment : Int)
  | hget (key field : Bytes)
  | sismember (key member : Bytes)
  | keys (pattern : Bytes)
  deriving DecidableEq, Repr

/-- A reply object. -/
inductive Reply where
  | status (text : Bytes)
  | error (text : Bytes)
  | integer (value : Int)
  | nil
  | string (text : Bytes)
  | array (elements : List Bytes)
  deriving DecidableEq, Repr

namespace Reply

/-- Whether the reply reports an error. -/
def isError : Reply → Bool
  | .error _ => true
  | _ => false

/-- The text carried by the reply object; null for the replies without one. -/
def str : Reply → Option Bytes
  | .status text | .error text | .string text => some text
  | _ => none

/-- The elements of an array reply; zero elements for every other type. -/
def elements : Reply → List Bytes
  | .array elements => elements
  | _ => []

end Reply

/-- An order in which the server may list a set of keys. -/
structure Listing where
  order : List Bytes → List Bytes
  perm : ∀ keys, (order keys).Perm keys

/-- The listing that keeps the order of the keyspace. -/
def Listing.sorted : Listing := ⟨id, fun _ => List.Perm.refl _⟩

/-- Commands that never change a database. -/
def Command.ReadOnly : Command → Prop
  | .setex .. | .del _ | .rename .. | .hincrby .. => False
  | _ => True

/-- The key a question is about. -/
def Command.subject : Command → Option Bytes
  | .get key | .hget key _ | .sismember key _ => some key
  | _ => none

/-- The keys a command may write. -/
def Command.writes : Command → List Bytes
  | .setex key _ _ | .del key | .hincrby key _ _ => [key]
  | .rename source target => [source, target]
  | _ => []

namespace Store

def wrongType : Reply :=
  .error (ascii "WRONGTYPE Operation against a key holding the wrong kind of value")

/-- `HINCRBY` on the fields of an existing hash. -/
def incrementField (fields : Std.ExtTreeMap Bytes Bytes) (field : Bytes) (increment : Int) :
    Except Bytes (Int × Std.ExtTreeMap Bytes Bytes) :=
  match fields[field]? with
  | none => .ok (increment, fields.insert field (Decimal.ofInt increment))
  | some text =>
      match Decimal.string2ll text with
      | none => .error (ascii "ERR hash value is not an integer")
      | some value =>
          if -(2 ^ 63) ≤ value + increment ∧ value + increment < 2 ^ 63 then
            .ok (value + increment, fields.insert field (Decimal.ofInt (value + increment)))
          else
            .error (ascii "ERR increment or decrement would overflow")

/-- Execute one command. -/
def exec (listing : Listing) (store : Store) : Command → Reply × Store
  | .ping => (.status (ascii "PONG"), store)
  | .select _ => (.status (ascii "OK"), store)
  | .setex key seconds value =>
      if seconds ≤ 0 then
        (.error (ascii "ERR invalid expire time in 'setex' command"), store)
      else
        (.status (ascii "OK"),
          store.put key ⟨.string value, some (store.now + seconds.toNat)⟩)
  | .get key =>
      match store.find? key with
      | none => (.nil, store)
      | some ⟨.string text, _⟩ => (.string text, store)
      | some _ => (wrongType, store)
  | .del key =>
      match store.find? key with
      | none => (.integer 0, store)
      | some _ => (.integer 1, store.erase key)
  | .rename source target =>
      match store.find? source with
      | none => (.error (ascii "ERR no such key"), store)
      | some entry => (.status (ascii "OK"), (store.erase source).put target entry)
  | .hincrby key field increment =>
      match store.find? key with
      | none =>
          let fields := (∅ : Std.ExtTreeMap Bytes Bytes).insert field (Decimal.ofInt increment)
          (.integer increment, store.put key ⟨.hash fields, none⟩)
      | some ⟨.hash fields, expiresAt⟩ =>
          match incrementField fields field increment with
          | .ok (value, fields) => (.integer value, store.put key ⟨.hash fields, expiresAt⟩)
          | .error text => (.error text, store)
      | some _ => (wrongType, store)
  | .hget key field =>
      match store.find? key with
      | none => (.nil, store)
      | some ⟨.hash fields, _⟩ =>
          match fields[field]? with
          | none => (.nil, store)
          | some text => (.string text, store)
      | some _ => (wrongType, store)
  | .sismember key member =>
      match store.find? key with
      | none => (.integer 0, store)
      | some ⟨.set members, _⟩ => (.integer (if member ∈ members then 1 else 0), store)
      | some _ => (wrongType, store)
  | .keys pattern =>
      (.array (listing.order (store.keys.filter (Glob.isMatch pattern))), store)

/-- The set under a key: an empty one if there is no such key, and none if the key
holds a value of another type. -/
def setAt (store : Store) (key : Bytes) : Option (Std.ExtTreeSet Bytes) :=
  match store.find? key with
  | none => some ∅
  | some ⟨.set members, _⟩ => some members
  | some _ => none

@[simp] theorem now_exec (listing : Listing) (store : Store) (command : Command) :
    (store.exec listing command).2.now = store.now := by
  cases command <;> simp only [exec] <;> (repeat' split) <;> rfl

theorem exec_readOnly (listing : Listing) (store : Store) {command : Command}
    (readOnly : command.ReadOnly) : (store.exec listing command).2 = store := by
  cases command <;> simp only [exec] <;> (repeat' split) <;>
    first | rfl | exact readOnly.elim

/-- Frame rule: a command changes no key it does not write. -/
theorem find?_exec_of_not_mem_writes (listing : Listing) (store : Store) (command : Command)
    {key : Bytes} (untouched : key ∉ command.writes) :
    (store.exec listing command).2.find? key = store.find? key := by
  cases command with
  | setex written seconds value =>
      simp only [Command.writes, List.mem_singleton] at untouched
      simp only [exec]
      split
      · rfl
      · exact find?_put_of_ne _ _ (Ne.symm untouched)
  | del written =>
      simp only [Command.writes, List.mem_singleton] at untouched
      simp only [exec]
      split
      · rfl
      · exact find?_erase_of_ne _ (Ne.symm untouched)
  | rename source target =>
      simp only [Command.writes, List.mem_cons, List.not_mem_nil, or_false, not_or] at untouched
      simp only [exec]
      split
      · rfl
      · rw [find?_put_of_ne _ _ (Ne.symm untouched.2),
          find?_erase_of_ne _ (Ne.symm untouched.1)]
  | hincrby written field increment =>
      simp only [Command.writes, List.mem_singleton] at untouched
      simp only [exec]
      split
      · exact find?_put_of_ne _ _ (Ne.symm untouched)
      · split
        · exact find?_put_of_ne _ _ (Ne.symm untouched)
        · rfl
      · rfl
  | ping | select _ | get _ | hget _ _ | sismember _ _ | keys _ =>
      exact congrArg (fun result : Store => result.find? key)
        (exec_readOnly listing store trivial)

/-! ## The database after a command -/

/-- The database after a command.  The order in which keys are listed only shows
in the reply. -/
def after (store : Store) (command : Command) : Store := (store.exec .sorted command).2

theorem exec_store (listing : Listing) (store : Store) (command : Command) :
    (store.exec listing command).2 = store.after command := by
  cases command <;> rfl

@[simp] theorem now_after (store : Store) (command : Command) :
    (store.after command).now = store.now := now_exec ..

theorem find?_after_of_not_mem_writes (store : Store) {command : Command} {key : Bytes}
    (untouched : key ∉ command.writes) :
    (store.after command).find? key = store.find? key :=
  find?_exec_of_not_mem_writes .sorted store command untouched

theorem find?_after_setex (store : Store) (key other : Bytes) (seconds : Int) (value : Bytes) :
    (store.after (.setex key seconds value)).find? other =
      if 0 < seconds ∧ key = other then
        some ⟨.string value, some (store.now + seconds.toNat)⟩
      else store.find? other := by
  by_cases positive : 0 < seconds
  · have refused : ¬seconds ≤ 0 := by omega
    simp only [after, exec, refused, if_false, find?_put, positive, true_and]
  · have refused : seconds ≤ 0 := by omega
    simp only [after, exec, refused, if_true, positive, false_and, if_false]

theorem find?_after_del (store : Store) (key other : Bytes) :
    (store.after (.del key)).find? other = if key = other then none else store.find? other := by
  cases found : store.find? key with
  | none =>
      simp only [after, exec, found]
      split
      · rename_i same
        rw [← same, found]
      · rfl
  | some entry => simp only [after, exec, found, find?_erase]

theorem after_rename_of_none {store : Store} {source : Bytes} (target : Bytes)
    (missing : store.find? source = none) :
    store.after (.rename source target) = store := by
  simp only [after, exec, missing]

theorem find?_after_rename {store : Store} {source : Bytes} {entry : Entry}
    (target other : Bytes) (found : store.find? source = some entry) :
    (store.after (.rename source target)).find? other =
      if target = other then some entry
      else if source = other then none else store.find? other := by
  simp only [after, exec, found, find?_put, find?_erase]

/-! ## Commands that do not meet -/

/-- Two databases that agree on the clock and on some keys. -/
structure AgreeOn (keys : List Bytes) (left right : Store) : Prop where
  now : left.now = right.now
  find? : ∀ key ∈ keys, left.find? key = right.find? key

/-- What a command writes depends on the keys it writes. -/
theorem find?_after_congr {left right : Store} {command : Command}
    (agree : AgreeOn command.writes left right) {key : Bytes} (written : key ∈ command.writes) :
    (left.after command).find? key = (right.after command).find? key := by
  have same := agree.find? key written
  cases command with
  | setex target seconds value =>
      rw [find?_after_setex, find?_after_setex, agree.now, same]
  | del target => rw [find?_after_del, find?_after_del, same]
  | rename source target =>
      have moved : left.find? source = right.find? source :=
        agree.find? source (List.mem_cons_self ..)
      cases found : right.find? source with
      | none =>
          rw [found] at moved
          rw [after_rename_of_none _ moved, after_rename_of_none _ found, same]
      | some entry =>
          rw [found] at moved
          rw [find?_after_rename _ _ moved, find?_after_rename _ _ found, same]
  | hincrby target field increment =>
      cases List.mem_singleton.mp written
      simp only [after, exec, same]
      split
      · simp only [find?_put_self]
      · split
        · simp only [find?_put_self]
        · exact same
      · exact same
  | ping | select _ | get _ | hget _ _ | sismember _ _ | keys _ => cases written

/-- So does the reply to a command that writes. -/
theorem reply_congr {left right : Store} {command : Command} (writes : ¬command.ReadOnly)
    (agree : AgreeOn command.writes left right) (listing : Listing) :
    (left.exec listing command).1 = (right.exec listing command).1 := by
  cases command with
  | setex target seconds value =>
      simp only [exec]
      split <;> rfl
  | del target =>
      have same := agree.find? target (List.mem_cons_self ..)
      simp only [exec, same]
      split <;> rfl
  | rename source target =>
      have same := agree.find? source (List.mem_cons_self ..)
      simp only [exec, same]
      split <;> rfl
  | hincrby target field increment =>
      have same := agree.find? target (List.mem_cons_self ..)
      simp only [exec, same]
      split
      · rfl
      · split <;> rfl
      · rfl
  | ping | select _ | get _ | hget _ _ | sismember _ _ | keys _ => exact absurd trivial writes

/-- The reply to a question about one key depends on the entry under it. -/
theorem reply_of_subject {left right : Store} {command : Command} {key : Bytes}
    (about : command.subject = some key) (same : left.find? key = right.find? key)
    (listing : Listing) : (left.exec listing command).1 = (right.exec listing command).1 := by
  cases command with
  | get subject | sismember subject member =>
      cases about
      simp only [exec, same]
      split <;> rfl
  | hget subject field =>
      cases about
      simp only [exec, same]
      split
      · rfl
      · split <;> rfl
      · rfl
  | _ => cases about

theorem agreeOn_after (store : Store) {command other : Command}
    (disjoint : ∀ key ∈ command.writes, key ∉ other.writes) :
    AgreeOn command.writes (store.after other) store :=
  ⟨store.now_after other, fun key written =>
    store.find?_after_of_not_mem_writes (disjoint key written)⟩

/-- Commands that write different keys commute. -/
theorem after_comm (store : Store) {command other : Command}
    (disjoint : ∀ key ∈ command.writes, key ∉ other.writes) :
    (store.after command).after other = (store.after other).after command := by
  have disjoint' : ∀ key ∈ other.writes, key ∉ command.writes :=
    fun key written clash => disjoint key clash written
  apply Store.ext
  · rw [now_after, now_after, now_after, now_after]
  · intro key
    by_cases written : key ∈ command.writes
    · rw [find?_after_of_not_mem_writes _ (disjoint key written),
        find?_after_congr (store.agreeOn_after disjoint) written]
    · rw [find?_after_of_not_mem_writes (store.after other) written]
      by_cases written' : key ∈ other.writes
      · rw [find?_after_congr (store.agreeOn_after disjoint') written']
      · rw [find?_after_of_not_mem_writes _ written', find?_after_of_not_mem_writes _ written',
          find?_after_of_not_mem_writes _ written]

/-- Two states of a key that differ at most in one field of a hash. -/
inductive SameBut (field : Bytes) : Option Entry → Option Entry → Prop where
  | same (entry : Option Entry) : SameBut field entry entry
  | created (fields : Std.ExtTreeMap Bytes Bytes)
      (others : ∀ other, other ≠ field → fields[other]? = none) :
      SameBut field none (some ⟨.hash fields, none⟩)
  | changed (before after : Std.ExtTreeMap Bytes Bytes) (expiresAt : Option Nat)
      (others : ∀ other, other ≠ field → after[other]? = before[other]?) :
      SameBut field (some ⟨.hash before, expiresAt⟩) (some ⟨.hash after, expiresAt⟩)

private theorem getElem?_insert_of_ne (fields : Std.ExtTreeMap Bytes Bytes)
    {field other : Bytes} (text : Bytes) (different : other ≠ field) :
    (fields.insert field text)[other]? = fields[other]? := by
  simp [Std.ExtTreeMap.getElem?_insert, Ne.symm different]

/-- The field is the only one that is written, and it receives the value that is
replied. -/
theorem incrementField_ok {fields : Std.ExtTreeMap Bytes Bytes} {field : Bytes}
    {increment : Int} {result : Int × Std.ExtTreeMap Bytes Bytes}
    (incremented : incrementField fields field increment = .ok result) :
    result.2 = fields.insert field (Decimal.ofInt result.1) := by
  rw [incrementField] at incremented
  repeat' split at incremented
  all_goals cases incremented
  all_goals rfl

/-- `HINCRBY` keeps the other fields and the expiration of the hash. -/
theorem sameBut_after_hincrby (store : Store) (key field : Bytes) (increment : Int) :
    SameBut field (store.find? key) ((store.after (.hincrby key field increment)).find? key) := by
  simp only [after, exec]
  cases found : store.find? key with
  | none =>
      simp only [find?_put_self]
      refine .created _ fun other different => ?_
      rw [getElem?_insert_of_ne _ _ different]
      simp
  | some entry =>
      cases entry with
      | mk value expiresAt =>
          cases value with
          | string text | set members =>
              rw [found]
              exact .same _
          | hash fields =>
              dsimp only
              cases incremented : incrementField fields field increment with
              | ok result =>
                  simp only [find?_put_self, incrementField_ok incremented]
                  exact .changed _ _ _ fun _ different => getElem?_insert_of_ne _ _ different
              | error text =>
                  dsimp only
                  rw [found]
                  exact .same _

/-- A key that holds nothing but a counter in one field of a hash, or nothing at
all while the counter is zero. -/
def HoldsCount (store : Store) (key field : Bytes) (count : Nat) : Prop :=
  (count = 0 ∧ store.find? key = none) ∨
    ∃ fields, store.find? key = some ⟨.hash fields, none⟩ ∧
      fields[field]? = some (Decimal.ofNat count)

/-- The value of a counter; zero if there is none. -/
def countAt (store : Store) (key field : Bytes) : Int :=
  match store.find? key with
  | some ⟨.hash fields, _⟩ => (fields[field]?.bind Decimal.string2ll).getD 0
  | _ => 0

theorem HoldsCount.countAt {store : Store} {key field : Bytes} {count : Nat}
    (holds : store.HoldsCount key field count) (fits : count < 2 ^ 63) :
    store.countAt key field = count := by
  rcases holds with ⟨rfl, missing⟩ | ⟨fields, found, text⟩
  · simp only [Store.countAt, missing]
    rfl
  · simp only [Store.countAt, found, text, Option.bind_some, Decimal.string2ll_ofNat count fits,
      Option.getD_some]

theorem HoldsCount.of_find? {store other : Store} {key field : Bytes} {count : Nat}
    (holds : store.HoldsCount key field count) (same : other.find? key = store.find? key) :
    other.HoldsCount key field count := by
  rw [HoldsCount, same]
  exact holds

/-- Counters do not expire. -/
theorem HoldsCount.advance {store : Store} {key field : Bytes} {count : Nat}
    (holds : store.HoldsCount key field count) (seconds : Nat) :
    (store.advance seconds).HoldsCount key field count := by
  refine holds.of_find? ?_
  rw [find?_advance]
  rcases holds with ⟨_, missing⟩ | ⟨fields, found, _⟩
  · rw [missing]
    rfl
  · rw [found]
    rfl

theorem HoldsCount.increment {store : Store} {key field : Bytes} {count : Nat}
    (holds : store.HoldsCount key field count) (fits : count + 1 < 2 ^ 63) :
    (store.after (.hincrby key field 1)).HoldsCount key field (count + 1) := by
  rcases holds with ⟨rfl, missing⟩ | ⟨fields, found, text⟩
  · have stored : (store.after (.hincrby key field 1)).find? key =
        some ⟨.hash ((∅ : Std.ExtTreeMap Bytes Bytes).insert field (Decimal.ofInt 1)), none⟩ := by
      simp only [after, exec, missing, find?_put_self]
    exact .inr ⟨_, stored, Std.ExtTreeMap.getElem?_insert_self⟩
  · have read := Decimal.string2ll_ofNat count (by omega)
    have inRange : -(2 ^ 63) ≤ (count : Int) + 1 ∧ (count : Int) + 1 < 2 ^ 63 := by omega
    have incremented : incrementField fields field 1 =
        .ok ((count : Int) + 1, fields.insert field (Decimal.ofInt ((count : Int) + 1))) := by
      simp only [incrementField, text, read, inRange, and_self, if_true]
    have stored : (store.after (.hincrby key field 1)).find? key =
        some ⟨.hash (fields.insert field (Decimal.ofInt ((count : Int) + 1))), none⟩ := by
      simp only [after, exec, found, incremented, find?_put_self]
    exact .inr ⟨_, stored, Std.ExtTreeMap.getElem?_insert_self⟩

/-- A counter that would overflow keeps its value. -/
theorem HoldsCount.increment_of_full {store : Store} {key field : Bytes} {count : Nat}
    (holds : store.HoldsCount key field count) (fits : count < 2 ^ 63)
    (full : 2 ^ 63 ≤ count + 1) :
    (store.after (.hincrby key field 1)).HoldsCount key field count := by
  rcases holds with ⟨rfl, missing⟩ | ⟨fields, found, text⟩
  · omega
  · have outOfRange : ¬(-(2 ^ 63) ≤ (count : Int) + 1 ∧ (count : Int) + 1 < 2 ^ 63) := by omega
    have refused : incrementField fields field 1 =
        .error (ascii "ERR increment or decrement would overflow") := by
      simp only [incrementField, text, Decimal.string2ll_ofNat count fits, outOfRange, if_false]
    have kept : store.after (.hincrby key field 1) = store := by
      simp only [after, exec, found, refused]
    rw [kept]
    exact .inr ⟨fields, found, text⟩

/-- Whatever its value, a counter stays one. -/
theorem HoldsCount.exists_after {store : Store} {key field : Bytes} {count : Nat}
    (holds : store.HoldsCount key field count) (fits : count < 2 ^ 63) :
    ∃ next < 2 ^ 63, (store.after (.hincrby key field 1)).HoldsCount key field next := by
  by_cases full : 2 ^ 63 ≤ count + 1
  · exact ⟨count, fits, holds.increment_of_full fits full⟩
  · exact ⟨count + 1, by omega, holds.increment (by omega)⟩

/-- The reply to a question for a counter. -/
theorem HoldsCount.exec_hget {store : Store} {key field : Bytes} {count : Nat}
    (holds : store.HoldsCount key field count) (listing : Listing) :
    (count = 0 ∧ (store.exec listing (.hget key field)).1 = .nil) ∨
      (store.exec listing (.hget key field)).1 = .string (Decimal.ofNat count) := by
  rcases holds with ⟨rfl, missing⟩ | ⟨fields, found, text⟩
  · refine .inl ⟨rfl, ?_⟩
    simp only [exec, missing]
  · refine .inr ?_
    simp only [exec, found, text]

end Store

/-! ## Delivery -/

/-- What becomes of a command on its way to the server and back.  Only
`normal` is an answer; the others are the ways in which a client may find
itself with a null or an error reply. -/
inductive Delivery where
  | normal
  | unsent
  | refused (text : Bytes)
  | unanswered
  deriving DecidableEq, Repr

namespace Store

/-- Reply and store after sending a command with the given delivery; `none` is
the null reply. -/
def deliver (delivery : Delivery) (listing : Listing) (store : Store) (command : Command) :
    Option Reply × Store :=
  match delivery with
  | .normal => (some (store.exec listing command).1, (store.exec listing command).2)
  | .unsent => (none, store)
  | .refused text => (some (.error text), store)
  | .unanswered => (none, (store.exec listing command).2)

/-- Whatever the delivery, the command was executed or it was not. -/
theorem deliver_store (delivery : Delivery) (listing : Listing) (store : Store)
    (command : Command) :
    (store.deliver delivery listing command).2 = store ∨
      (store.deliver delivery listing command).2 = store.after command := by
  cases delivery with
  | normal | unanswered => exact .inr (exec_store ..)
  | unsent | refused text => exact .inl rfl

theorem mem_of_exec_keys {store : Store} {listing : Listing} {pattern : Bytes}
    {elements : List Bytes} (replied : (store.exec listing (.keys pattern)).1 = .array elements)
    {key : Bytes} (member : key ∈ elements) :
    store.find? key ≠ none ∧ Glob.isMatch pattern key = true := by
  simp only [exec, Reply.array.injEq] at replied
  rw [← replied, (listing.perm _).mem_iff, List.mem_filter, mem_keys] at member
  obtain ⟨⟨entry, found⟩, accepted⟩ := member
  exact ⟨by simp [found], accepted⟩

/-- Only keys that exist are listed. -/
theorem mem_of_deliver_keys {store : Store} {delivery : Delivery} {listing : Listing}
    {pattern : Bytes} {elements : List Bytes}
    (replied : (store.deliver delivery listing (.keys pattern)).1 = some (.array elements))
    {key : Bytes} (member : key ∈ elements) : store.find? key ≠ none := by
  cases delivery with
  | normal => exact (mem_of_exec_keys (Option.some.inj replied) member).1
  | refused text | unsent | unanswered => cases replied

end Store

end BtTracker.Redis
