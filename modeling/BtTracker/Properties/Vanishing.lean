import BtTracker.Correctness.Wire
import BtTracker.Correctness.Keys
import BtTracker.Foundation.Environment
import Mathlib.Logic.Relation

/-!
# Records that vanish while they are read

`bt_peer_list` lists the keys of a swarm first and reads the records afterwards.
In between other workers remove and rename keys, and keys expire.  A key that is
gone by then is answered with a nil reply, which is a reply all the same: the
code takes it for a record and follows a null pointer.
-/

namespace BtTracker

open BtTracker.Foundation
open BtTracker.Foundation.Program (Ensures Runs)

/-- What may happen to the database between two commands of a worker. -/
inductive Disturbs : Redis.Store → Redis.Store → Prop where
  | removed (store : Redis.Store) (key : Bytes) : Disturbs store (store.after (.del key))
  | renamed (store : Redis.Store) (source target : Bytes) :
      Disturbs store (store.after (.rename source target))
  | expired (store : Redis.Store) (seconds : Nat) : Disturbs store (store.advance seconds)

/-- A database that others use as well.  `reads` lists the records a worker has
asked for, each with what was stored under its key at that time. -/
structure Shared where
  store : Redis.Store
  reads : List (Bytes × Option Redis.Entry)

/-- A worker that reads while others interfere.  Every command is answered, by the
database as it is when the command arrives. -/
def Shared.Answers (shared : Shared) (op : Op) (answer : op.Answer) (after : Shared) : Prop :=
  ∃ store, Relation.ReflTransGen Disturbs shared.store store ∧
    match op, answer with
    | .redisCommand _ (.get key), reply =>
        reply = some (store.exec .sorted (.get key)).1 ∧
          after = ⟨store, shared.reads ++ [(key, store.find? key)]⟩
    | .redisCommand _ request, reply =>
        (∃ listing, reply = some (store.exec listing request).1) ∧
          after = ⟨store.after request, shared.reads⟩
    | _, _ => after = ⟨store, shared.reads⟩

/-- The addresses in those of some records that are full, the last one first. -/
def recordedAddrs (host : Host) (reads : List (Bytes × Option Redis.Entry)) : List BtPeerAddr :=
  (reads.filterMap fun read => recordedAddr host read.2).reverse

/-- No record is read through a pointer to nothing or past its end, and the
result has one address for each full record that was read, and no other. -/
structure SkipsVanished (host : Host) (outcome : Except Fault (List BtPeerAddr × Nat))
    (after : Shared) : Prop where
  pointer : outcome ≠ .error .nullPeer
  bounds : outcome ≠ .error .shortPeer
  result : ∀ list count, outcome = .ok (list, count) →
    list = recordedAddrs host after.reads ∧ count = (recordedAddrs host after.reads).length

/-- Every key still held a full record when it was read. -/
def Undisturbed (host : Host) (after : Shared) : Prop :=
  ∀ read ∈ after.reads, (recordedAddr host read.2).isSome = true

/-! ## Reading one record -/

variable {host : Host}

/-- Reading may fail, but only in two ways. -/
theorem readPeerAddr_cases (host : Host) (reply : Redis.Reply) :
    (∃ addr, readPeerAddr host reply = .done addr) ∨
      readPeerAddr host reply = .fault .nullPeer ∨
      readPeerAddr host reply = .fault .shortPeer := by
  rw [readPeerAddr]
  split
  · exact .inr (.inl rfl)
  · split
    · exact .inl ⟨_, rfl⟩
    · exact .inr (.inr rfl)

/-! ## Reading a list -/

/-- How the loop over the keys may end, with what it has read on top of a list: it
stops at a record that cannot be read, or it counts every one of them. -/
def Fetched (host : Host) (shared : Shared) (list : List BtPeerAddr) (count : Nat)
    (outcome : Except Fault (List BtPeerAddr × Nat)) (after : Shared) : Prop :=
  ∃ later, after.reads = shared.reads ++ later ∧
    match outcome with
    | .error reason => (reason = .nullPeer ∨ reason = .shortPeer) ∧
        ∃ read ∈ later, recordedAddr host read.2 = none
    | .ok (peers, total) => total = count + later.length ∧
        ((∀ read ∈ later, (recordedAddr host read.2).isSome = true) →
          peers = recordedAddrs host later ++ list)

/-- One more record in front. -/
theorem Fetched.cons {shared middle after : Shared} {read : Bytes × Option Redis.Entry}
    {list : List BtPeerAddr} {count : Nat} {addr : BtPeerAddr}
    {outcome : Except Fault (List BtPeerAddr × Nat)}
    (logged : middle.reads = shared.reads ++ [read])
    (recorded : ∀ other, recordedAddr host read.2 = some other → other = addr)
    (fetched : Fetched host middle (addr :: list) (count + 1) outcome after) :
    Fetched host shared list count outcome after := by
  obtain ⟨later, grown, ends⟩ := fetched
  refine ⟨read :: later, by rw [grown, logged, List.append_assoc, List.singleton_append], ?_⟩
  cases outcome with
  | error reason =>
      obtain ⟨which, missing, member, unread⟩ := ends
      exact ⟨which, missing, List.mem_cons_of_mem read member, unread⟩
  | ok result =>
      constructor
      · rw [ends.1, List.length_cons]
        omega
      · intro full
        obtain ⟨other, found⟩ := Option.isSome_iff_exists.mp (full read List.mem_cons_self)
        rw [ends.2 fun read member => full read (List.mem_cons_of_mem _ member),
          ← recorded other found]
        simp only [recordedAddrs, List.filterMap_cons, found, List.reverse_cons,
          List.append_assoc, List.singleton_append]

theorem fetchPeers_ensures (redis : Context) (keys : List Bytes) (list : List BtPeerAddr)
    (count : Nat) (shared : Shared) :
    Ensures Shared.Answers (Fetched host shared list count)
      (fetchPeers host (some redis) keys list count) shared := by
  induction keys generalizing list count shared with
  | nil => exact ⟨[], (List.append_nil _).symm, rfl, fun _ => rfl⟩
  | cons key rest ih =>
      intro reply middle answered
      obtain ⟨store, _, rfl, rfl⟩ := answered
      change Ensures _ _ (readPeerAddr host (store.exec .sorted (.get key)).1 >>= fun addr =>
        fetchPeers host (some redis) rest (addr :: list) (count + 1)) _
      cases found : recordedAddr host (store.find? key) with
      | some addr =>
          rw [readPeerAddr_of_recorded host found]
          refine (ih (addr :: list) (count + 1) _).mono fun outcome after fetched => ?_
          refine fetched.cons rfl fun other recorded => ?_
          exact Option.some.inj (recorded.symm.trans found)
      | none =>
          -- The code does not notice that there is no record.
          have fails (reason : Fault) (which : reason = .nullPeer ∨ reason = .shortPeer) :
              Fetched host shared list count (.error reason)
                ⟨store, shared.reads ++ [(key, store.find? key)]⟩ :=
            ⟨[(key, store.find? key)], rfl, which, _, List.mem_singleton_self _, found⟩
          rcases readPeerAddr_cases host (store.exec .sorted (.get key)).1 with
            ⟨addr, read⟩ | null | short
          · rw [read]
            refine (ih (addr :: list) (count + 1) _).mono fun outcome after fetched => ?_
            refine fetched.cons rfl fun other recorded => ?_
            rw [found] at recorded
            cases recorded
          · rw [null]
            exact fails _ (.inl rfl)
          · rw [short]
            exact fails _ (.inr rfl)

/-! ## The whole function -/

/-- The shuffle asks for no record, and fails only over an index. -/
theorem shuffleFrom_ensures (rounds i : Nat) (elements : List Bytes) (shared : Shared) :
    Ensures Shared.Answers (fun outcome after => after.reads = shared.reads ∧
        ∀ reason, outcome = .error reason → reason = .elementIndex)
      (shuffleFrom rounds i elements) shared := by
  induction rounds generalizing i elements shared with
  | zero => exact ⟨rfl, nofun⟩
  | succ rounds ih =>
      intro value middle answered
      obtain ⟨store, _, rfl⟩ := answered
      change Ensures _ _ (.ofOption .elementIndex (swapElements elements i
        (scaleRandom _ _ value)) >>= fun elements => shuffleFrom rounds (i + 1) elements) _
      cases swapElements elements i (scaleRandom _ _ value) with
      | none =>
          refine ⟨rfl, fun reason equal => ?_⟩
          cases equal
          rfl
      | some swapped => exact ih (i + 1) swapped ⟨store, shared.reads⟩

theorem Fetched.skips_iff {shared after : Shared}
    {outcome : Except Fault (List BtPeerAddr × Nat)} (fresh : shared.reads = [])
    (fetched : Fetched host shared [] 0 outcome after) :
    SkipsVanished host outcome after ↔ Undisturbed host after := by
  obtain ⟨later, grown, ends⟩ := fetched
  rw [fresh, List.nil_append] at grown
  subst grown
  cases outcome with
  | error reason =>
      obtain ⟨which, missing, member, unread⟩ := ends
      constructor
      · intro skips
        rcases which with rfl | rfl
        · exact absurd rfl skips.pointer
        · exact absurd rfl skips.bounds
      · intro undisturbed
        have present := undisturbed missing member
        rw [unread] at present
        cases present
  | ok result =>
      obtain ⟨total, read⟩ := ends
      rw [Nat.zero_add] at total
      constructor
      · intro skips
        have counted := (skips.result _ _ rfl).2
        rw [recordedAddrs, List.length_reverse, total] at counted
        exact List.filterMap_length_eq_length.mp counted.symm
      · intro undisturbed
        refine ⟨nofun, nofun, fun list count returned => ?_⟩
        cases returned
        constructor
        · exact (read undisturbed).trans (List.append_nil _)
        · rw [recordedAddrs, List.length_reverse]
          exact total.trans (List.filterMap_length_eq_length.mpr undisturbed).symm

/-- Everything after the answer to `KEYS`. -/
theorem listedPeers_ensures (redis : Context) (rounds : Nat) (elements : List Bytes)
    {shared : Shared} (fresh : shared.reads = []) :
    Ensures Shared.Answers
      (fun outcome after => SkipsVanished host outcome after ↔ Undisturbed host after)
      (shuffleFrom rounds 0 elements >>= fun elements =>
        fetchPeers host (some redis) (elements.take rounds) [] 0) shared := by
  refine .bind (shuffleFrom_ensures rounds 0 elements shared) ?_ ?_
  · intro shuffled last kept
    refine (fetchPeers_ensures redis _ [] 0 last).mono fun outcome after fetched => ?_
    exact fetched.skips_iff (kept.1.trans fresh)
  · intro reason last kept
    cases kept.2 reason rfl
    have undisturbed : Undisturbed host last := by
      rw [Undisturbed, kept.1, fresh]
      exact nofun
    exact ⟨fun _ => undisturbed, fun _ => ⟨nofun, nofun, nofun⟩⟩

variable (host) in
/-- `bt_peer_list` copes with keys that vanish only in the runs in which none
does. -/
theorem skipsVanished_iff (redis : Context) (config : BtConfig) (infoHashStr : Bytes)
    (numWant : BitVec 32) (peerCount : Nat) (seeder : Bool) (store : Redis.Store)
    (outcome : Except Fault (List BtPeerAddr × Nat)) (after : Shared)
    (ran : Runs Shared.Answers
      (btPeerList host (some redis) config infoHashStr numWant peerCount seeder) ⟨store, []⟩
      outcome after) :
    SkipsVanished host outcome after ↔ Undisturbed host after := by
  have ensures : Ensures Shared.Answers
      (fun outcome after => SkipsVanished host outcome after ↔ Undisturbed host after)
      (btPeerList host (some redis) config infoHashStr numWant peerCount seeder)
      ⟨store, []⟩ := by
    intro reply listed answered
    obtain ⟨current, _, ⟨listing, rfl⟩, rfl⟩ := answered
    exact listedPeers_ensures redis _ _ rfl
  exact ensures.runs ran

/-! ## A leecher that stops -/

/-- A worker that is left alone, except that keys may be removed just before they
are read. -/
def Shared.exec (removes : Bytes → Bool) (op : Op) (shared : Shared) : op.Answer × Shared :=
  match op with
  | .redisCommand _ (.get key) =>
      let store := if removes key then shared.store.after (.del key) else shared.store
      (some (store.exec .sorted (.get key)).1,
        ⟨store, shared.reads ++ [(key, store.find? key)]⟩)
  | .redisCommand _ request =>
      (some (shared.store.exec .sorted request).1, ⟨shared.store.after request, shared.reads⟩)
  | .privateGet => (none, shared)
  | .privateReplace _ => ((), shared)
  | .redisConnect _ _ => (.noMemory, shared)
  | .redisFree _ => ((), shared)
  | .rand => (0, shared)
  | .malloc => (fun _ => 0, shared)
  | .loadSockaddr _ => (⟨0, 0⟩, shared)
  | .sendto _ _ => ((), shared)

theorem Shared.answers_exec (removes : Bytes → Bool) (op : Op) (shared : Shared) :
    shared.Answers op (shared.exec removes op).1 (shared.exec removes op).2 := by
  cases op with
  | redisCommand redis request =>
      cases request with
      | get key =>
          by_cases removed : removes key = true
          · refine ⟨shared.store.after (.del key), .single (.removed _ _), ?_⟩
            rw [exec, if_pos removed]
            exact ⟨rfl, rfl⟩
          · refine ⟨shared.store, .refl, ?_⟩
            rw [exec, if_neg removed]
            exact ⟨rfl, rfl⟩
      | _ => exact ⟨shared.store, .refl, ⟨.sorted, rfl⟩, rfl⟩
  | _ => exact ⟨shared.store, .refl, rfl⟩

/-- A swarm with a single leecher. -/
def loneLeecher : Redis.Store :=
  Redis.Store.empty.after
    (.setex (peerKey .shipped (infoHashText fun _ => 65) false fun _ => 66) 60
      (BtPeer.image .little ⟨1, 2, 3, 4, 6881, 0x0a000001, fun _ => 0⟩))

/-- The list of its leechers. -/
def leecherList : Worker (List BtPeerAddr × Nat) :=
  btPeerList .little (some 0) .shipped (infoHashText fun _ => 65) 10 0 false

/-- The leecher stops after it was listed. -/
theorem not_skipsVanished_loneLeecher :
    ∃ outcome after, Runs Shared.Answers leecherList ⟨loneLeecher, []⟩ outcome after ∧
      ¬SkipsVanished .little outcome after := by
  have crashes : (leecherList.run (Shared.exec fun _ => true) ⟨loneLeecher, []⟩).1 =
      .error .nullPeer := by
    decide +kernel
  refine ⟨_, _, Program.runs_run _ (Shared.answers_exec fun _ => true) _ _, fun skips => ?_⟩
  exact skips.pointer crashes

/-- The leecher stays. -/
theorem skipsVanished_loneLeecher :
    SkipsVanished .little (leecherList.run (Shared.exec fun _ => false) ⟨loneLeecher, []⟩).1
      (leecherList.run (Shared.exec fun _ => false) ⟨loneLeecher, []⟩).2 := by
  have undisturbed : Undisturbed .little
      (leecherList.run (Shared.exec fun _ => false) ⟨loneLeecher, []⟩).2 := by
    rw [Undisturbed]
    decide +kernel
  exact (skipsVanished_iff .little 0 .shipped _ 10 0 false loneLeecher _ _
    (Program.runs_run _ (Shared.answers_exec fun _ => false) _ _)).mpr undisturbed

end BtTracker
