import BtTracker.Correctness.Swarm
import BtTracker.Correctness.Answer

/-!
# How peers are picked

The shuffle of `bt_peer_list` exchanges keys of the listing, so its outcome is
the same keys in another order, and the keys that are read from the front are
different ones.  As long as every index it draws lies within the listing and
every key holds a record, exactly as many peers are picked as there are, up to
the number that is wanted.
-/

namespace BtTracker

open BtTracker.Foundation

variable {host : Host} {config : BtConfig} {world after : World}

/-! ## The shuffle -/

/-- The index drawn in round `i` of a shuffle of `total` keys is the index of a
key. -/
def Within (total i : Nat) (value : Fin (randMax + 1)) : Prop :=
  let j := scaleRandom (BitVec.ofNat 32 i) (BitVec.ofNat 32 (total - 1)) value
  0 ≤ j.toInt ∧ j.toInt < total

instance (total i : Nat) (value : Fin (randMax + 1)) : Decidable (Within total i value) :=
  inferInstanceAs (Decidable (_ ∧ _))

/-- Scaling in exact arithmetic, as long as nothing wraps around. -/
theorem scaleRandom_eq {total i : Nat} (round : i < total) (few : total ≤ 2 ^ 31)
    (value : Fin (randMax + 1)) :
    scaleRandom (BitVec.ofNat 32 i) (BitVec.ofNat 32 (total - 1)) value =
      BitVec.ofNat 32 ((total - i) * value.val / randMax + i) := by
  have one : (1 : BitVec 32).toNat = 1 := rfl
  have range : (BitVec.ofNat 32 (total - 1) - BitVec.ofNat 32 i + 1).toNat = total - i := by
    rw [BitVec.toNat_add, BitVec.toNat_sub, BitVec.toNat_ofNat, BitVec.toNat_ofNat, one]
    omega
  have first : (BitVec.ofNat 32 i).toNat = i := by
    rw [BitVec.toNat_ofNat]
    omega
  rw [scaleRandom, range, first]

/-- Only `RAND_MAX` itself is scaled to an index beyond the last one. -/
theorem within_iff {total i : Nat} (round : i < total) (few : total ≤ 2 ^ 31)
    (value : Fin (randMax + 1)) : Within total i value ↔ value.val ≠ randMax := by
  rw [Within, scaleRandom_eq round few, BitVec.toInt_ofNat']
  constructor
  · intro within last
    rw [last, Nat.mul_div_cancel _ (by decide), Nat.sub_add_cancel (Nat.le_of_lt round),
      Int.bmod_def] at within
    omega
  · intro other
    have smaller : value.val < randMax := by
      have bound := value.isLt
      omega
    have scaled : (total - i) * value.val / randMax < total - i := by
      rw [Nat.div_lt_iff_lt_mul (by decide)]
      exact Nat.mul_lt_mul_of_pos_left smaller (by omega)
    generalize (total - i) * value.val / randMax = index at scaled
    rw [Int.bmod_eq_of_le (by omega) (by omega)]
    omega

/-- An index within bounds can be exchanged. -/
theorem swapElements_of_inside {elements : List Bytes} {i j : Nat} {index : BitVec 32}
    (round : i < elements.length) (inside : j < elements.length) (drawn : index.toInt = j) :
    swapElements elements i index = some (exchange elements i j) := by
  have same : index.toNat = j := by
    have cast := BitVec.toInt_eq_toNat_cond index
    split at cast <;> omega
  have positive : ¬index.toInt < 0 := by omega
  simp only [swapElements, exchange, same, List.getElem?_eq_getElem round,
    List.getElem?_eq_getElem inside, positive, if_false, Option.bind_eq_bind, Option.bind_some]

theorem swapElements_of_within {elements : List Bytes} {i : Nat} {value : Fin (randMax + 1)}
    (round : i < elements.length) (within : Within elements.length i value) :
    ∃ swapped, swapElements elements i (scaleRandom (BitVec.ofNat 32 i)
      (BitVec.ofNat 32 (elements.length - 1)) value) = some swapped := by
  obtain ⟨positive, below⟩ := within
  exact ⟨_, swapElements_of_inside round (by omega) (Int.toNat_of_nonneg positive).symm⟩

/-- Any other index is a fault. -/
theorem swapElements_of_outside {elements : List Bytes} {i : Nat} {value : Fin (randMax + 1)}
    (outside : ¬Within elements.length i value) :
    swapElements elements i (scaleRandom (BitVec.ofNat 32 i)
      (BitVec.ofNat 32 (elements.length - 1)) value) = none := by
  rw [Within] at outside
  generalize scaleRandom _ _ value = j at outside ⊢
  cases first : elements[i]? with
  | none => simp only [swapElements, first, Option.bind_eq_bind, Option.bind_none]
  | some aux =>
      by_cases negative : j.toInt < 0
      · simp only [swapElements, first, negative, if_true, Option.bind_eq_bind,
          Option.bind_some, Option.bind_none]
      · have beyond : elements.length ≤ j.toNat := by
          have cast := BitVec.toInt_eq_toNat_cond j
          split at cast <;> omega
        simp only [swapElements, first, negative, if_false, List.getElem?_eq_none beyond,
          Option.bind_eq_bind, Option.bind_some, Option.bind_none]

namespace World

/-- The indices a shuffle of `total` keys draws from round `i` on. -/
def Draws (world : World) (total i : Nat) (indices : List Nat) : Prop :=
  ∀ round j : Nat, indices[round]? = some j →
    (scaleRandom (BitVec.ofNat 32 (i + round)) (BitVec.ofNat 32 (total - 1))
      (world.choices round).random).toInt = j

/-- The shuffle exchanges keys as the indices say. -/
theorem run_shuffleFrom_of_draws (i : Nat) {indices : List Nat} {elements : List Bytes}
    {world : World} (fits : i + indices.length ≤ elements.length)
    (inside : ∀ j ∈ indices, j < elements.length)
    (draws : world.Draws elements.length i indices) :
    ∃ after, world.run (shuffleFrom indices.length i elements) =
        (.ok (exchanges i indices elements), after) ∧ Later indices.length world after := by
  induction indices generalizing i elements world with
  | nil => exact ⟨world, rfl, .refl _⟩
  | cons j rest ih =>
      rw [List.length_cons] at fits
      have round : i < elements.length := by omega
      have swap := swapElements_of_inside round (inside j List.mem_cons_self) (draws 0 j rfl)
      have same := (exchange_perm elements i j).length_eq
      have drawn := Later.rand world
      have remaining : i + 1 + rest.length ≤ (exchange elements i j).length := by omega
      have stillInside : ∀ k ∈ rest, k < (exchange elements i j).length := by
        intro k member
        rw [same]
        exact inside k (List.mem_cons_of_mem j member)
      have stillDraws : (World.exec .rand world).2.Draws (exchange elements i j).length (i + 1)
          rest := by
        intro round k found
        rw [same, drawn.choices, Nat.add_assoc, Nat.add_comm 1]
        exact draws (round + 1) k found
      obtain ⟨after, shuffles, later⟩ := ih (i + 1) remaining stillInside stillDraws
      refine ⟨after, ?_, ?_⟩
      · rw [exchanges, ← shuffles, List.length_cons, shuffleFrom]
        change World.run (.ofOption .elementIndex (swapElements elements i
          (scaleRandom _ _ (world.choices 0).random)) >>= shuffleFrom rest.length (i + 1)) _ = _
        rw [Nat.add_zero] at swap
        rw [swap, Program.ofOption_some, Program.done_bind]
      · rw [List.length_cons, Nat.add_comm]
        exact drawn.trans later

/-- The indices a shuffle of `total` keys draws in some rounds from round `i` on. -/
def drawn (choices : Nat → Choice) (total i rounds : Nat) : List Nat :=
  (List.range rounds).map fun round => (scaleRandom (BitVec.ofNat 32 (i + round))
    (BitVec.ofNat 32 (total - 1)) (choices round).random).toInt.toNat

/-- The shuffle exchanges keys as long as every index it draws is the index of one. -/
theorem run_shuffleFrom (rounds i : Nat) {elements : List Bytes} {world : World}
    (fits : i + rounds ≤ elements.length)
    (within : ∀ round < rounds, Within elements.length (i + round) (world.choices round).random) :
    ∃ after, world.run (shuffleFrom rounds i elements) =
        (.ok (exchanges i (drawn world.choices elements.length i rounds) elements), after) ∧
      Later rounds world after := by
  have counted : (drawn world.choices elements.length i rounds).length = rounds := by simp [drawn]
  have inside : ∀ j ∈ drawn world.choices elements.length i rounds, j < elements.length := by
    intro j member
    obtain ⟨round, before, rfl⟩ := List.mem_map.mp member
    obtain ⟨positive, below⟩ := within round (List.mem_range.mp before)
    exact (Int.toNat_lt positive).mpr below
  have draws : world.Draws elements.length i (drawn world.choices elements.length i rounds) := by
    intro round j found
    obtain ⟨before, rfl⟩ := List.getElem?_eq_some_iff.mp found
    simp only [drawn, List.getElem_map, List.getElem_range]
    exact (Int.toNat_of_nonneg (within round (counted ▸ before)).1).symm
  obtain ⟨after, shuffles, later⟩ :=
    run_shuffleFrom_of_draws i (counted.symm ▸ fits) inside draws
  rw [counted] at shuffles later
  exact ⟨after, shuffles, later⟩

/-- The first index that is none of a key ends the run. -/
theorem run_shuffleFrom_of_outside (rounds i : Nat) {elements : List Bytes} {world : World}
    (fits : i + rounds ≤ elements.length)
    (outside : ∃ round < rounds,
      ¬Within elements.length (i + round) (world.choices round).random) :
    (world.run (shuffleFrom rounds i elements)).1 = .error .elementIndex := by
  induction rounds generalizing i elements world with
  | zero =>
      obtain ⟨round, before, -⟩ := outside
      omega
  | succ rounds ih =>
      change (World.run (.ofOption .elementIndex (swapElements elements i
        (scaleRandom _ _ (world.choices 0).random)) >>= shuffleFrom rounds (i + 1))
          (World.exec .rand world).2).1 = _
      by_cases within : Within elements.length i (world.choices 0).random
      · obtain ⟨swapped, swap⟩ := swapElements_of_within (by omega) within
        have perm := swapElements_perm swap
        rw [swap, Program.ofOption_some, Program.done_bind]
        refine ih (i + 1) (by rw [perm.length_eq]; omega) ?_
        obtain ⟨round, before, bad⟩ := outside
        cases round with
        | zero => exact absurd within bad
        | succ round =>
            refine ⟨round, by omega, ?_⟩
            rw [perm.length_eq, (Later.rand world).choices, Nat.add_assoc, Nat.add_comm 1]
            exact bad
      · rw [swapElements_of_outside within]
        rfl

end World

/-! ## Reading the records -/

/-- The address in the record a reply is taken for; nothing if the reply has no text or one
that is too short. -/
def addrOf (host : Host) (reply : Redis.Reply) : Option BtPeerAddr :=
  reply.str.bind fun text =>
    if peerPortOffset + 2 ≤ text.length then
      some (btNewPeerAddr (host.order.load 32 ((text.drop peerAddrOffset).take 4))
        (host.order.load 16 ((text.drop peerPortOffset).take 2)))
    else none

theorem readPeerAddr_of_some {reply : Redis.Reply} {addr : BtPeerAddr}
    (read : addrOf host reply = some addr) : readPeerAddr host reply = .done addr := by
  obtain ⟨text, found, long⟩ := Option.bind_eq_some_iff.mp read
  split at long
  · rename_i fits
    cases long
    simp only [readPeerAddr, found, fits, if_true]
    rfl
  · cases long

theorem readPeerAddr_of_none {reply : Redis.Reply} (unread : addrOf host reply = none) :
    ∃ reason, readPeerAddr host reply = .fault reason := by
  rw [readPeerAddr]
  cases found : reply.str with
  | none => exact ⟨_, rfl⟩
  | some text =>
      rw [addrOf, found, Option.bind_some] at unread
      split at unread
      · cases unread
      · rename_i short
        exact ⟨_, if_neg short⟩

/-- What `bt_peer_list` reads under a key. -/
def storedAddr (host : Host) (store : Redis.Store) (key : Bytes) : Option BtPeerAddr :=
  addrOf host (store.exec .sorted (.get key)).1

/-- A full record is read as it was stored. -/
theorem storedAddr_of_recorded {store : Redis.Store} {key : Bytes} {addr : BtPeerAddr}
    (recorded : recordedAddr host (store.find? key) = some addr) :
    storedAddr host store key = some addr := by
  have reads := readPeerAddr_of_recorded host recorded .sorted
  cases read : storedAddr host store key with
  | none =>
      obtain ⟨reason, failed⟩ := readPeerAddr_of_none read
      cases failed.symm.trans reads
  | some other =>
      cases (readPeerAddr_of_some read).symm.trans reads
      rfl

namespace World

/-- The loop returns what is stored under the keys, the last one first. -/
theorem Normal.run_fetchPeers {world : World} (normal : world.Normal) (redis : Context)
    {keys : List Bytes} {addrs : List BtPeerAddr}
    (read : keys.map (storedAddr host world.store) = addrs.map some)
    (list : List BtPeerAddr) (count : Nat) :
    ∃ after, world.run (fetchPeers host (some redis) keys list count) =
        (.ok (addrs.reverse ++ list, count + keys.length), after) ∧
      Later keys.length world after := by
  induction keys generalizing addrs list count world with
  | nil =>
      cases addrs with
      | nil => exact ⟨world, rfl, .refl world⟩
      | cons addr addrs => cases read
  | cons key keys ih =>
      cases addrs with
      | nil => cases read
      | cons addr addrs =>
          obtain ⟨found, others⟩ := List.cons.inj read
          obtain ⟨next, listing, answered, step⟩ := normal.run_redisCommand redis (.get key) trivial
          rw [← step.store] at others
          obtain ⟨after, fetched, later⟩ := ih (step.normal normal) others (addr :: list) (count + 1)
          have taken : addrOf host (world.store.exec listing (.get key)).1 = some addr := found
          refine ⟨after, ?_, ?_⟩
          · rw [fetchPeers, run_bind_of_ok answered]
            dsimp only
            rw [readPeerAddr_of_some taken, Program.done_bind, fetched]
            simp only [List.reverse_cons, List.append_assoc, List.singleton_append,
              List.length_cons, Nat.add_assoc, Nat.add_comm 1]
          · rw [List.length_cons, Nat.add_comm]
            exact step.trans later

/-- A key under which there is no record to be read ends the run. -/
theorem Normal.run_fetchPeers_of_unread {world : World} (normal : world.Normal)
    (redis : Context) {keys : List Bytes}
    (unread : ∃ key ∈ keys, storedAddr host world.store key = none) (list : List BtPeerAddr)
    (count : Nat) :
    ∃ reason, (world.run (fetchPeers host (some redis) keys list count)).1 = .error reason := by
  induction keys generalizing list count world with
  | nil =>
      obtain ⟨key, member, -⟩ := unread
      cases member
  | cons key keys ih =>
      obtain ⟨next, listing, answered, step⟩ := normal.run_redisCommand redis (.get key) trivial
      rw [fetchPeers, run_bind_of_ok answered]
      dsimp only
      cases read : addrOf host (world.store.exec listing (.get key)).1 with
      | none =>
          obtain ⟨reason, failed⟩ := readPeerAddr_of_none read
          rw [failed]
          exact ⟨reason, rfl⟩
      | some addr =>
          rw [readPeerAddr_of_some read, Program.done_bind]
          apply ih (step.normal normal)
          obtain ⟨other, member, missing⟩ := unread
          rcases List.mem_cons.mp member with rfl | later
          · cases missing.symm.trans read
          · exact ⟨other, later, by rw [step.store]; exact missing⟩

end World

/-! ## Peer lists -/

/-- The keys of a swarm's seeders or leechers. -/
def roleKeys (config : BtConfig) (store : Redis.Store) (infoHashStr : Bytes) (isSeeder : Bool) :
    List Bytes :=
  store.keys.filter (Glob.isMatch (swarmPattern config infoHashStr isSeeder))

/-- Addresses of as many different keys, each the one stored under its key. -/
def Picked (host : Host) (store : Redis.Store) (keys : List Bytes) (count : Nat)
    (addrs : List BtPeerAddr) : Prop :=
  ∃ chosen : List Bytes, chosen.Nodup ∧ chosen ⊆ keys ∧ chosen.length = count ∧
    chosen.map (fun key => recordedAddr host (store.find? key)) = addrs.map some

/-- Every key holds a full record. -/
def Recorded (host : Host) (store : Redis.Store) (keys : List Bytes) : Prop :=
  ∀ key ∈ keys, (recordedAddr host (store.find? key)).isSome = true

/-- What the tracker files under the keys of a swarm are full records. -/
theorem Reachable.recorded {history : List Served} (reached : Reachable host config world history)
    (plain : config.Plain) (infoHash : Octets 20) (isSeeder : Bool) :
    Recorded host world.store (roleKeys config world.store (infoHashText infoHash) isSeeder) := by
  intro key member
  obtain ⟨peerId, present, rfl⟩ := (reached.mem_listed plain).mp member
  obtain ⟨entry, found⟩ := Option.ne_none_iff_exists'.mp present
  have notList : ¬(KeyName.peer infoHash isSeeder peerId).IsList := id
  obtain ⟨served, -, -, -, -, -, ⟨padding, rfl⟩, -⟩ := reached.filed notList found
  rw [found, Datagram.entryAt, recordedAddr_image]
  rfl

theorem Picked.length_eq {store : Redis.Store} {keys : List Bytes} {count : Nat}
    {addrs : List BtPeerAddr} (picked : Picked host store keys count addrs) :
    addrs.length = count := by
  obtain ⟨chosen, -, -, counted, stored⟩ := picked
  rw [← counted, ← List.length_map some, ← stored, List.length_map]

/-- The number of rounds fits an `int`. -/
theorem upperIndex_eq (total : Nat) {numWant : BitVec 32} {wanted : Nat}
    (asked : numWant.toInt = wanted) : upperIndex total numWant = (min wanted total : Nat) := by
  have value : numWant.toNat = wanted ∧ 2 * wanted < 2 ^ 32 := by
    have cast := BitVec.toInt_eq_toNat_cond numWant
    have bounded := numWant.isLt
    split at cast <;> omega
  have positive : numWant.msb = false := BitVec.msb_eq_false_iff_two_mul_lt.mpr (by omega)
  have extended : (numWant.signExtend 64).toNat = wanted := by
    rw [BitVec.signExtend_eq_setWidth_of_msb_false positive, BitVec.toNat_setWidth, value.1,
      Nat.mod_eq_of_lt (by omega)]
  have smaller : (if total > wanted then wanted else total) = min wanted total := by
    split <;> omega
  have rounds : (BitVec.ofNat 32 (min wanted total)).toNat = min wanted total := by
    rw [BitVec.toNat_ofNat, Nat.mod_eq_of_lt (by omega)]
  rw [upperIndex, extended, smaller, BitVec.toInt_eq_toNat_of_lt (by omega), rounds]

/-- The keys whose records are read: the front of the shuffled listing. -/
def pickedKeys (choices : Nat → Choice) (keys : List Bytes) (rounds : Nat) : List Bytes :=
  (exchanges 0 (World.drawn (fun position => choices (1 + position)) keys.length 0 rounds)
    ((choices 0).listing.order keys)).take rounds

/-- What it takes to pick some of the listed keys: every index lies within the listing, and
there is a record to be read under every key that is picked. -/
structure Picks (host : Host) (store : Redis.Store) (choices : Nat → Choice) (keys : List Bytes)
    (rounds : Nat) : Prop where
  within : ∀ round < rounds, Within keys.length round (choices (1 + round)).random
  readable : ∀ key ∈ pickedKeys choices keys rounds, (storedAddr host store key).isSome = true

/-- Addresses read under as many different keys. -/
def Gleaned (host : Host) (store : Redis.Store) (keys : List Bytes) (count : Nat)
    (addrs : List BtPeerAddr) : Prop :=
  ∃ chosen : List Bytes, chosen.Nodup ∧ chosen ⊆ keys ∧ chosen.length = count ∧
    chosen.map (storedAddr host store) = addrs.map some

theorem pickedKeys_subset (choices : Nat → Choice) (keys : List Bytes) (rounds : Nat) :
    pickedKeys choices keys rounds ⊆ keys :=
  List.Subset.trans (List.take_subset ..)
    ((exchanges_perm ..).trans ((choices 0).listing.perm keys)).subset

/-- Where every key holds a full record, only the indices matter. -/
theorem Picks.of_recorded {store : Redis.Store} {choices : Nat → Choice} {keys : List Bytes}
    {rounds : Nat} (recorded : Recorded host store keys)
    (within : ∀ round < rounds, Within keys.length round (choices (1 + round)).random) :
    Picks host store choices keys rounds := by
  refine ⟨within, fun key member => ?_⟩
  obtain ⟨addr, found⟩ := Option.isSome_iff_exists.mp
    (recorded key (pickedKeys_subset choices keys rounds member))
  rw [storedAddr_of_recorded found]
  rfl

theorem Gleaned.length_eq {store : Redis.Store} {keys : List Bytes} {count : Nat}
    {addrs : List BtPeerAddr} (gleaned : Gleaned host store keys count addrs) :
    addrs.length = count := by
  obtain ⟨chosen, -, -, counted, stored⟩ := gleaned
  rw [← counted, ← List.length_map some, ← stored, List.length_map]

/-- What is read from full records is what they hold. -/
theorem Gleaned.picked {store : Redis.Store} {keys : List Bytes} {count : Nat}
    {addrs : List BtPeerAddr} (gleaned : Gleaned host store keys count addrs)
    (recorded : Recorded host store keys) : Picked host store keys count addrs := by
  obtain ⟨chosen, distinct, subset, counted, stored⟩ := gleaned
  refine ⟨chosen, distinct, subset, counted, ?_⟩
  rw [← stored, List.map_inj_left]
  intro key member
  obtain ⟨addr, found⟩ := Option.isSome_iff_exists.mp (recorded key (subset member))
  rw [found, storedAddr_of_recorded found]

/-- Reading the front of a shuffled listing reads under different keys. -/
theorem Picks.gleaned {store : Redis.Store} {choices : Nat → Choice} {keys : List Bytes}
    {rounds : Nat} (picks : Picks host store choices keys rounds) (distinct : keys.Nodup)
    (fits : rounds ≤ keys.length) :
    ∃ addrs : List BtPeerAddr,
      (pickedKeys choices keys rounds).map (storedAddr host store) = addrs.map some ∧
        Gleaned host store keys rounds addrs.reverse := by
  have perm := (exchanges_perm 0 (World.drawn (fun position => choices (1 + position)) keys.length
    0 rounds) ((choices 0).listing.order keys)).trans ((choices 0).listing.perm keys)
  have readable : ∀ addr ∈ (pickedKeys choices keys rounds).map (storedAddr host store),
      addr.isSome = true := by
    intro addr member
    obtain ⟨key, taken, rfl⟩ := List.mem_map.mp member
    exact picks.readable key taken
  have read : (pickedKeys choices keys rounds).map (storedAddr host store) =
      ((pickedKeys choices keys rounds).filterMap (storedAddr host store)).map some := by
    rw [List.map_filterMap_some_eq_filter_map_isSome, List.filter_eq_self.mpr readable]
  refine ⟨_, read, (pickedKeys choices keys rounds).reverse, ?_, ?_, ?_, ?_⟩
  · exact List.nodup_reverse.mpr ((perm.nodup_iff.mpr distinct).sublist (List.take_sublist ..))
  · exact fun key member => pickedKeys_subset _ _ _ (List.mem_reverse.mp member)
  · rw [List.length_reverse, pickedKeys, List.length_take, perm.length_eq, Nat.min_eq_left fits]
  · rw [List.map_reverse, read, List.map_reverse]

namespace World

section PeerList

variable (redis : Context) {infoHashStr : Bytes} {seeder : Bool} {keys : List Bytes}
  (counted : roleKeys config world.store infoHashStr seeder = keys)
  {numWant : BitVec 32} {wanted rounds : Nat} (asked : numWant.toInt = wanted)
  (few : min wanted keys.length = rounds)

include counted asked few in
/-- The listing `bt_peer_list` works on. -/
theorem Normal.run_btPeerList_eq (normal : world.Normal) (peerCount : Nat) :
    ∃ listed, Later 1 world listed ∧
      world.run (btPeerList host (some redis) config infoHashStr numWant peerCount seeder) =
        listed.run (shuffleFrom rounds 0 ((world.choices 0).listing.order keys) >>= fun elements =>
          fetchPeers host (some redis) (elements.take rounds) [] 0) := by
  have observes : (Op.redisCommand redis
      (.keys (swarmPattern config infoHashStr seeder))).Observes := trivial
  have answered : world.run (redisCommand (some redis)
      (.keys (swarmPattern config infoHashStr seeder))) =
        (.ok (some (.array ((world.choices 0).listing.order keys))),
          (world.command (.keys (swarmPattern config infoHashStr seeder))).2) := by
    rw [redisCommand_some, run_perform, World.exec, normal.command, ← counted]
    rfl
  have reordered := (world.choices 0).listing.perm keys
  have upper : (upperIndex ((world.choices 0).listing.order keys).length numWant).toNat =
      rounds := by
    rw [upperIndex_eq _ asked, reordered.length_eq, few, Int.toNat_natCast]
  refine ⟨_, .exec observes world, ?_⟩
  rw [btPeerList, ← swarmPattern, run_bind_of_ok answered]
  dsimp only
  rw [upper]
  rfl

include counted asked few in
/-- `bt_peer_list` picks as many different peers as are wanted, if there are so
many. -/
theorem Normal.run_btPeerList (normal : world.Normal)
    (picks : Picks host world.store world.choices keys rounds) (peerCount : Nat) :
    ∃ peers after, world.run (btPeerList host (some redis) config infoHashStr numWant peerCount
          seeder) = (.ok (peers, peers.length), after) ∧
      Gleaned host world.store keys rounds peers ∧ Later (1 + (rounds + rounds)) world after := by
  obtain ⟨listed, first, ran⟩ := normal.run_btPeerList_eq redis counted asked few peerCount
  have distinct : keys.Nodup := counted ▸ world.store.nodup_keys.filter _
  have fits : rounds ≤ keys.length := few ▸ Nat.min_le_right ..
  have reordered := (world.choices 0).listing.perm keys
  have shown : listed.choices = fun position => world.choices (1 + position) := funext first.choices
  have within : ∀ round < rounds, Within ((world.choices 0).listing.order keys).length (0 + round)
      (listed.choices round).random := by
    intro round before
    rw [reordered.length_eq, Nat.zero_add, shown]
    exact picks.within round before
  obtain ⟨shuffled, shuffles, second⟩ := run_shuffleFrom rounds 0
    (by rw [reordered.length_eq, Nat.zero_add]; exact fits) within
  obtain ⟨addrs, read, gleaned⟩ := picks.gleaned distinct fits
  have taken : (pickedKeys world.choices keys rounds).length = rounds := by
    rw [← List.length_map (storedAddr host world.store), read, List.length_map,
      ← List.length_reverse, gleaned.length_eq]
  rw [← first.store, ← second.store] at read
  obtain ⟨after, fetched, third⟩ :=
    (second.normal (first.normal normal)).run_fetchPeers redis read [] 0
  rw [taken] at third
  refine ⟨addrs.reverse, after, ?_, gleaned, first.trans (second.trans third)⟩
  rw [ran, run_bind_of_ok shuffles, reordered.length_eq, shown]
  change World.run (fetchPeers host (some redis) (pickedKeys world.choices keys rounds) [] 0) _ = _
  rw [fetched, taken, List.append_nil, Nat.zero_add, gleaned.length_eq]

include counted asked few in
/-- Otherwise the run ends. -/
theorem Normal.run_btPeerList_of_not_picks (normal : world.Normal)
    (fails : ¬Picks host world.store world.choices keys rounds) (peerCount : Nat) :
    ∃ reason, (world.run (btPeerList host (some redis) config infoHashStr numWant peerCount
      seeder)).1 = .error reason := by
  obtain ⟨listed, first, ran⟩ := normal.run_btPeerList_eq redis counted asked few peerCount
  have reordered := (world.choices 0).listing.perm keys
  have shown : listed.choices = fun position => world.choices (1 + position) := funext first.choices
  have fits : 0 + rounds ≤ ((world.choices 0).listing.order keys).length := by
    rw [reordered.length_eq]
    omega
  rw [ran]
  by_cases within : ∀ round < rounds, Within keys.length round (world.choices (1 + round)).random
  · have unread : ∃ key ∈ pickedKeys world.choices keys rounds,
        storedAddr host world.store key = none := by
      by_contra readable
      push Not at readable
      exact fails ⟨within, fun key member => Option.isSome_iff_ne_none.mpr (readable key member)⟩
    have indices : ∀ round < rounds, Within ((world.choices 0).listing.order keys).length
        (0 + round) (listed.choices round).random := by
      intro round before
      rw [reordered.length_eq, Nat.zero_add, shown]
      exact within round before
    obtain ⟨shuffled, shuffles, second⟩ := run_shuffleFrom rounds 0 fits indices
    rw [run_bind_of_ok shuffles, reordered.length_eq, shown]
    refine (second.normal (first.normal normal)).run_fetchPeers_of_unread redis ?_ [] 0
    rw [second.store, first.store]
    exact unread
  · have failed : (listed.run (shuffleFrom rounds 0
        ((world.choices 0).listing.order keys))).1 = .error .elementIndex := by
      refine run_shuffleFrom_of_outside rounds 0 fits ?_
      push Not at within
      rw [reordered.length_eq, shown]
      simpa only [Nat.zero_add] using within
    rw [run_bind_of_error (Prod.ext failed rfl)]
    exact ⟨_, rfl⟩

end PeerList

end World

/-! ## The peers of an announce -/

/-- How many peers an announce gets at most: as many as it asks for, if the
configuration allows that. -/
def wantedPeers (config : BtConfig) (numWant : BitVec 32) : Nat :=
  if 0 ≤ numWant.toInt ∧ numWant.toInt ≤ config.announceMaxNumwant.toNat then
    numWant.toInt.toNat
  else
    config.announceMaxNumwant.toNat

theorem wantedPeers_le (config : BtConfig) (numWant : BitVec 32) :
    wantedPeers config numWant ≤ config.announceMaxNumwant.toNat := by
  rw [wantedPeers]
  split
  · omega
  · exact Nat.le_refl _

theorem toInt_clampNumWant (config : BtConfig) (numWant : BitVec 32) :
    (clampNumWant config numWant).toInt = wantedPeers config numWant := by
  rw [clampNumWant, wantedPeers]
  split
  · rename_i outside
    have limit := config.announceMaxNumwant.isLt
    rw [if_neg (by omega), BitVec.toInt_setWidth, Int.bmod_eq_of_le (by omega) (by omega)]
  · rename_i inside
    rw [if_pos (by omega), Int.toNat_of_nonneg (by omega)]

/-- What is still wanted after some peers were found. -/
theorem toInt_remaining {numWant : BitVec 32} {wanted found : Nat}
    (asked : numWant.toInt = wanted) (fewer : found ≤ wanted) :
    (numWant - BitVec.ofNat 32 found).toInt = (wanted - found : Nat) := by
  have bound := numWant.toInt_lt
  have small : (BitVec.ofNat 32 found).toInt = found := by
    rw [BitVec.toInt_eq_toNat_bmod, BitVec.toNat_ofNat, Nat.mod_eq_of_lt (by omega),
      Int.bmod_eq_of_le (by omega) (by omega)]
  rw [BitVec.toInt_sub, small, asked, Int.bmod_eq_of_le (by omega) (by omega)]
  omega

/-- Every index drawn for an announce lies within its listing: first those for
the opposite role, then those for siblings. -/
structure World.DrawsWithin (opposite own : List Bytes) (wanted : Nat) (world : World) : Prop where
  others : ∀ round < min wanted opposite.length,
    Within opposite.length round (world.choices (1 + round)).random
  siblings : ∀ round < min (wanted - min wanted opposite.length) own.length,
    Within own.length round
      (world.choices (1 + (min wanted opposite.length + min wanted opposite.length) +
        (1 + round))).random

/-- Nothing goes wrong unless `RAND_MAX` is drawn. -/
theorem World.DrawsWithin.of_ne_randMax {opposite own : List Bytes} {wanted : Nat}
    (few : opposite.length ≤ 2 ^ 31) (fewOwn : own.length ≤ 2 ^ 31)
    (smaller : ∀ position, (world.choices position).random.val ≠ randMax) :
    world.DrawsWithin opposite own wanted := by
  constructor
  · intro round before
    exact (within_iff (by omega) few _).mpr (smaller _)
  · intro round before
    exact (within_iff (by omega) fewOwn _).mpr (smaller _)

theorem Gleaned.none (host : Host) (store : Redis.Store) (keys : List Bytes) :
    Gleaned host store keys 0 [] :=
  ⟨[], List.nodup_nil, List.nil_subset keys, rfl, rfl⟩

/-- What it takes to gather the peers of an announce: its keys of the opposite role can be
picked, and then its siblings. -/
structure Gathers (host : Host) (store : Redis.Store) (choices : Nat → Choice)
    (opposite own : List Bytes) (wanted : Nat) : Prop where
  others : Picks host store choices opposite (min wanted opposite.length)
  siblings : Picks host store
    (fun position => choices (1 + (min wanted opposite.length + min wanted opposite.length) +
      position)) own (min (wanted - min wanted opposite.length) own.length)

theorem Gathers.drawsWithin {store : Redis.Store} {opposite own : List Bytes} {wanted : Nat}
    (gathers : Gathers host store world.choices opposite own wanted) :
    world.DrawsWithin opposite own wanted :=
  ⟨gathers.others.within, gathers.siblings.within⟩

/-- Where every key holds a full record, only the indices matter. -/
theorem Gathers.of_recorded {store : Redis.Store} {opposite own : List Bytes} {wanted : Nat}
    (others : Recorded host store opposite) (siblings : Recorded host store own)
    (draws : world.DrawsWithin opposite own wanted) :
    Gathers host store world.choices opposite own wanted :=
  ⟨.of_recorded others draws.others, .of_recorded siblings draws.siblings⟩

/-- The header of the answer, with the size of the swarm. -/
def announceResp (config : BtConfig) (request : BtReq) (store : Redis.Store)
    (infoHashStr : Bytes) : BtAnnounceResp where
  action := request.action
  transactionId := request.transactionId
  interval := config.announceWaitTime
  leechers := BitVec.ofNat 32 (roleKeys config store infoHashStr false).length
  seeders := BitVec.ofNat 32 (roleKeys config store infoHashStr true).length

namespace World

section Answer

variable (redis : Context) {infoHashStr : Bytes} {isSeeder : Bool} {opposite own : List Bytes}
  (others : roleKeys config world.store infoHashStr (!isSeeder) = opposite)
  (siblings : roleKeys config world.store infoHashStr isSeeder = own)

include others siblings in
/-- Peers of the opposite role come first, and siblings fill the gap. -/
theorem Normal.run_selectPeers (normal : world.Normal) {numWant : BitVec 32} {wanted : Nat}
    (asked : numWant.toInt = wanted)
    (gathers : Gathers host world.store world.choices opposite own wanted) :
    ∃ peers complement after steps,
      world.run (selectPeers host (some redis) config infoHashStr numWant isSeeder) =
          (.ok (peers ++ complement, (peers ++ complement).length), after) ∧
        Gleaned host world.store opposite (min wanted opposite.length) peers ∧
        Gleaned host world.store own (min (wanted - min wanted opposite.length) own.length)
          complement ∧
        Later steps world after := by
  obtain ⟨peers, middle, found, gleaned, first⟩ := normal.run_btPeerList redis others
    asked rfl gathers.others 0
  have counted := gleaned.length_eq
  rw [selectPeers, run_bind_of_ok found]
  dsimp only
  rw [asked]
  split
  · rename_i missing
    have fewer : min wanted opposite.length ≤ wanted := Nat.min_le_left ..
    have remaining := toInt_remaining asked fewer
    have picks := gathers.siblings
    rw [← first.store] at siblings picks
    rw [← funext first.choices] at picks
    obtain ⟨complement, after, foundToo, gleanedToo, second⟩ :=
      (first.normal normal).run_btPeerList redis siblings remaining rfl picks 0
    rw [first.store] at gleanedToo
    refine ⟨peers, complement, after, _, ?_, gleaned, gleanedToo, first.trans second⟩
    rw [counted, run_bind_of_ok foundToo]
    dsimp only
    split
    · rw [List.length_append, counted]
      rfl
    · rename_i unused
      have nothing : complement = [] := by
        by_contra found
        exact unused ⟨found, List.length_pos_iff.mpr found⟩
      rw [nothing, List.append_nil, counted]
      rfl
  · rename_i enough
    have nothing : min (wanted - min wanted opposite.length) own.length = 0 := by omega
    refine ⟨peers, [], middle, _, ?_, gleaned, ?_, first⟩
    · rw [List.append_nil]
      rfl
    · rw [nothing]
      exact .none host world.store own

include others siblings in
theorem Normal.run_selectPeers_of_not_gathers (normal : world.Normal) {numWant : BitVec 32}
    {wanted : Nat} (asked : numWant.toInt = wanted)
    (fails : ¬Gathers host world.store world.choices opposite own wanted) :
    ∃ reason, (world.run (selectPeers host (some redis) config infoHashStr numWant
      isSeeder)).1 = .error reason := by
  by_cases picks : Picks host world.store world.choices opposite (min wanted opposite.length)
  · obtain ⟨peers, middle, found, gleaned, first⟩ := normal.run_btPeerList redis others
      asked rfl picks 0
    have counted := gleaned.length_eq
    have bad : ¬Picks host middle.store middle.choices own
        (min (wanted - min wanted opposite.length) own.length) := by
      rw [first.store, funext first.choices]
      exact fun siblings => fails ⟨picks, siblings⟩
    have missing : (peers.length : Int) < wanted := by
      by_contra enough
      have nothing : min (wanted - min wanted opposite.length) own.length = 0 := by omega
      rw [nothing] at bad
      exact bad ⟨fun round before => absurd before (Nat.not_lt_zero round), nofun⟩
    have remaining := toInt_remaining asked (Nat.min_le_left wanted opposite.length)
    rw [← first.store] at siblings
    obtain ⟨reason, failed⟩ := (first.normal normal).run_btPeerList_of_not_picks redis siblings
      remaining rfl bad 0
    rw [selectPeers, run_bind_of_ok found]
    dsimp only
    rw [asked, if_pos missing, counted, run_bind_of_error (Prod.ext failed rfl)]
    exact ⟨reason, rfl⟩
  · obtain ⟨reason, failed⟩ := normal.run_btPeerList_of_not_picks redis others asked rfl picks 0
    rw [selectPeers, run_bind_of_error (Prod.ext failed rfl)]
    exact ⟨reason, rfl⟩

include others siblings in
/-- The answer to an announce: the size of the swarm and the peers that were
picked. -/
theorem Normal.run_answerAnnounce (normal : world.Normal) (request : BtReq)
    (announceRequest : BtAnnounceReq)
    (gathers : Gathers host world.store world.choices opposite own
      (wantedPeers config announceRequest.numWant)) :
    ∃ peers complement,
      (world.run (answerAnnounce host request config announceRequest infoHashStr isSeeder
          (some redis))).1 =
        .ok (.ofBytes (announceHeader host (announceResp config request world.store infoHashStr) ++
          (peers ++ complement).flatMap (peerEntry host))) ∧
      Gleaned host world.store opposite
        (min (wantedPeers config announceRequest.numWant) opposite.length) peers ∧
      Gleaned host world.store own
        (min (wantedPeers config announceRequest.numWant -
          min (wantedPeers config announceRequest.numWant) opposite.length) own.length)
        complement := by
  have asked := toInt_clampNumWant config announceRequest.numWant
  obtain ⟨peers, complement, after, steps, selected, gleaned, gleanedToo, later⟩ :=
    normal.run_selectPeers redis others siblings asked gathers
  refine ⟨peers, complement, ?_, gleaned, gleanedToo⟩
  have statistics : (after.run (btGetTorrentStats (some redis) config infoHashStr .unassigned)).1 =
      .ok (torrentStats config world.store infoHashStr) := by
    rw [← later.store]
    exact (later.normal normal).run_btGetTorrentStats redis infoHashStr .unassigned
  rw [answerAnnounce, run_bind_of_ok selected]
  dsimp only
  rw [run_bind_of_ok (Prod.ext statistics rfl)]
  dsimp only [torrentStats]
  rw [Program.ofOption_some, Program.done_bind, Program.ofOption_some, Program.done_bind,
    btSerializeAnnounceResponse_eq host _ _ _ rfl]
  rfl

include others siblings in
/-- Without its peers an announce is not answered. -/
theorem Normal.run_answerAnnounce_of_not_gathers (normal : world.Normal) (request : BtReq)
    (announceRequest : BtAnnounceReq)
    (fails : ¬Gathers host world.store world.choices opposite own
      (wantedPeers config announceRequest.numWant)) :
    ∃ reason, (world.run (answerAnnounce host request config announceRequest infoHashStr isSeeder
      (some redis))).1 = .error reason := by
  obtain ⟨reason, failed⟩ := normal.run_selectPeers_of_not_gathers redis others siblings
    (toInt_clampNumWant config announceRequest.numWant) fails
  rw [answerAnnounce, run_bind_of_error (Prod.ext failed rfl)]
  exact ⟨reason, rfl⟩

end Answer

end World

/-! ## The whole answer -/

namespace Datagram

variable (host) (config) (datagram : Datagram)

/-- The keys of the peers of the announced torrent under a role. -/
def swarmKeys (store : Redis.Store) (isSeeder : Bool) : List Bytes :=
  roleKeys config store (infoHashText (datagram.announce host).infoHash) isSeeder

/-- The keys of the peers whose role is not the one of the announcing peer. -/
def oppositeKeys (store : Redis.Store) : List Bytes :=
  datagram.swarmKeys host config store (!datagram.isSeeder host)

/-- The keys of the peers with the role of the announcing peer. -/
def siblingKeys (store : Redis.Store) : List Bytes :=
  datagram.swarmKeys host config store (datagram.isSeeder host)

/-- How many peers the announce gets at most. -/
def wanted : Nat := wantedPeers config (datagram.announce host).numWant

/-- The answer to the announce, with some peers. -/
def answerBlock (store : Redis.Store) (peers : List BtPeerAddr) : Block :=
  .ofBytes (announceHeader host (announceResp config (datagram.request host) store
    (infoHashText (datagram.announce host).infoHash)) ++ peers.flatMap (peerEntry host))

end Datagram

namespace World

section Sent

variable {arrival : Arrival} {store : Redis.Store}
  (admitted : world.Admitted host config arrival) (normal : arrival.Normal)
  (stored : arrival.update host config (world.residue host config arrival) world.store = store)

include admitted normal stored in
/-- While Redis answers normally, an admitted announce that gathers its peers is answered
from the updated database. -/
theorem sent_of_gathers
    (gathers : Gathers host store (world.updated host config arrival).2.choices
      (arrival.oppositeKeys host config store) (arrival.siblingKeys host config store)
      (arrival.wanted host config)) :
    ∃ peers complement,
      (world.serve host config arrival).2.sent =
        [(arrival.sender, arrival.answerBlock host config store (peers ++ complement))] ∧
      Gleaned host store (arrival.oppositeKeys host config store)
        (min (arrival.wanted host config) (arrival.oppositeKeys host config store).length) peers ∧
      Gleaned host store (arrival.siblingKeys host config store)
        (min (arrival.wanted host config - min (arrival.wanted host config)
          (arrival.oppositeKeys host config store).length)
          (arrival.siblingKeys host config store).length) complement := by
  have linked := admitted.accepted.1
  rw [← world.store_updated_of_normal host config arrival linked normal] at stored
  subst stored
  have ready := world.updated_normal host config arrival normal
  obtain ⟨redis, context⟩ := Option.isSome_iff_exists.mp linked
  obtain ⟨peers, complement, answered, others, siblings⟩ := ready.run_answerAnnounce redis rfl rfl
    (arrival.request host) (arrival.announce host) gathers
  refine ⟨peers, complement, ?_, others, siblings⟩
  rw [world.serve_of_admitted host config arrival admitted,
    run_answer_respond (answerAnnounce_observes ..), updated_sent host config world arrival linked,
    context, answered, updated_siOther, List.nil_append]
  rfl

include admitted normal stored in
/-- An announce that does not gather its peers is left without an answer. -/
theorem sent_of_not_gathers
    (fails : ¬Gathers host store (world.updated host config arrival).2.choices
      (arrival.oppositeKeys host config store) (arrival.siblingKeys host config store)
      (arrival.wanted host config)) :
    (world.serve host config arrival).2.sent = [] := by
  have linked := admitted.accepted.1
  rw [← world.store_updated_of_normal host config arrival linked normal] at stored
  subst stored
  have ready := world.updated_normal host config arrival normal
  obtain ⟨redis, context⟩ := Option.isSome_iff_exists.mp linked
  obtain ⟨reason, failed⟩ := ready.run_answerAnnounce_of_not_gathers redis rfl rfl
    (arrival.request host) (arrival.announce host) fails
  rw [world.serve_of_admitted host config arrival admitted,
    run_answer_respond (answerAnnounce_observes ..), updated_sent host config world arrival linked,
    context, failed]
  rfl

include admitted normal stored in
/-- Where every key of the torrent holds a full record, only the indices matter. -/
theorem sent_of_recorded
    (recorded : ∀ isSeeder, Recorded host store (arrival.swarmKeys host config store isSeeder))
    (draws : (world.updated host config arrival).2.DrawsWithin
      (arrival.oppositeKeys host config store) (arrival.siblingKeys host config store)
      (arrival.wanted host config)) :
    ∃ peers complement,
      (world.serve host config arrival).2.sent =
        [(arrival.sender, arrival.answerBlock host config store (peers ++ complement))] ∧
      Picked host store (arrival.oppositeKeys host config store)
        (min (arrival.wanted host config) (arrival.oppositeKeys host config store).length) peers ∧
      Picked host store (arrival.siblingKeys host config store)
        (min (arrival.wanted host config - min (arrival.wanted host config)
          (arrival.oppositeKeys host config store).length)
          (arrival.siblingKeys host config store).length) complement := by
  obtain ⟨peers, complement, sent, others, siblings⟩ := sent_of_gathers admitted normal stored
    (.of_recorded (recorded _) (recorded _) draws)
  exact ⟨peers, complement, sent, others.picked (recorded _), siblings.picked (recorded _)⟩

end Sent

end World

end BtTracker
