import BtTracker.Correctness.Update
import BtTracker.Semantics.Run

/-!
# Invariants of every run

What the database may hold: only keys of the key grammar, only entries that have
not expired, connections that were issued and peers that were announced.
-/

namespace BtTracker

open BtTracker.Foundation

variable {host : Host} {config : BtConfig} {world : World} {history : List Served}

namespace Run

/-- Time and the operator only remove what the tracker filed. -/
theorem find?_of_rest {next : World} {seconds : Nat} {name : KeyName} {entry : Redis.Entry}
    (clock : next.store.now = world.store.now + seconds)
    (others : ∀ key, key ≠ restrictionKey config (ascii "wl") →
      key ≠ restrictionKey config (ascii "bl") →
        next.store.find? key = (world.store.advance seconds).find? key)
    (notList : ¬name.IsList)
    (found : next.store.find? (name.encode host config) = some entry) :
    world.store.find? (name.encode host config) = some entry ∧
      entry.aliveAt next.store.now = true := by
  obtain ⟨notWhitelist, notBlacklist⟩ := KeyName.encode_ne_lists notList
  rw [others _ notWhitelist notBlacklist] at found
  rw [clock]
  exact Redis.Store.find?_of_find?_advance found

/-- What is missing stays missing while no datagram is handled. -/
theorem missing_of_rest {next : World} {seconds : Nat} {name : KeyName}
    (clock : next.store.now = world.store.now + seconds)
    (others : ∀ key, key ≠ restrictionKey config (ascii "wl") →
      key ≠ restrictionKey config (ascii "bl") →
        next.store.find? key = (world.store.advance seconds).find? key)
    (notList : ¬name.IsList)
    (missing : world.store.find? (name.encode host config) = none) :
    next.store.find? (name.encode host config) = none := by
  by_contra present
  obtain ⟨entry, found⟩ := Option.ne_none_iff_exists'.mp present
  cases missing.symm.trans (find?_of_rest clock others notList found).1

end Run

/-! ## Where an entry comes from -/

namespace Datagram.Updates

variable {datagram : Datagram} {store after : Redis.Store} {name : KeyName} {entry : Redis.Entry}

private theorem find?_promoted
    (found : (store.after (datagram.promoteCommand host config)).find?
      (name.encode host config) = some entry) :
    store.find? (name.encode host config) = some entry ∨
      (name = datagram.peerKeyName host true ∧
        store.find? (datagram.recordKey host config false) = some entry) := by
  cases moved : store.find? (datagram.recordKey host config false) with
  | none =>
      rw [promoteCommand, Redis.Store.after_rename_of_none _ moved] at found
      exact .inl found
  | some record =>
      rw [promoteCommand, Redis.Store.find?_after_rename _ _ moved] at found
      split at found
      · rename_i target
        exact .inr ⟨((KeyName.encode_inj host config).mp target).symm, found⟩
      · split at found
        · cases found
        · exact .inl found

/-- An entry after an announce was there before, or the announce put it there:
its own record, the record of its peer as a leecher, or the counter. -/
theorem find?_cases (updates : datagram.Updates host config store after)
    (found : after.find? (name.encode host config) = some entry) :
    store.find? (name.encode host config) = some entry ∨
    (datagram.Registers host ∧ 0 < config.peerTtl ∧
      name = datagram.peerKeyName host (datagram.isSeeder host) ∧
      ∃ padding, entry = datagram.entryAt host config padding store.now) ∨
    (datagram.event host = some .completed ∧ name = datagram.peerKeyName host true ∧
      store.find? (datagram.recordKey host config false) = some entry) ∨
    name = .torrent (datagram.announce host).infoHash := by
  cases updates with
  | kept => exact .inl found
  | inserted registers =>
      rw [insertCommand, Redis.Store.find?_after_setex] at found
      split at found
      · rename_i written
        have same := (KeyName.encode_inj host config).mp written.2
        exact .inr (.inl ⟨registers, written.1, same.symm, _, (Option.some.inj found).symm⟩)
      · exact .inl found
  | removed stopped =>
      rw [removeCommand, Redis.Store.find?_after_del] at found
      split at found
      · cases found
      · exact .inl found
  | promoted completed =>
      rcases find?_promoted found with kept | moved
      · exact .inl kept
      · exact .inr (.inr (.inl ⟨completed, moved⟩))
  | counted completed _ =>
      by_cases counter : name = .torrent (datagram.announce host).infoHash
      · exact .inr (.inr (.inr counter))
      · have other : name.encode host config ≠ datagram.torrentKey host config :=
          mt (KeyName.encode_inj host config).mp counter
        rw [Redis.Store.find?_after_of_not_mem_writes _
          (by simp [countCommand, Redis.Command.writes, other])] at found
        rcases find?_promoted found with kept | moved
        · exact .inl kept
        · exact .inr (.inr (.inl ⟨completed, moved⟩))

end Datagram.Updates

/-- Where an entry comes from: the request that issued the connection, or the
announce that registered the peer, with the deadline it set and which has not
passed yet. -/
def Filed (host : Host) (config : BtConfig) (history : List Served) (moment : Nat) :
    KeyName → Redis.Entry → Prop
  | .connection connectionId, entry => ∃ served ∈ history,
      served.world.Connected host config served.arrival ∧
      (served.world.issued host config served.arrival).1 = connectionId ∧
      entry = ⟨.string (ascii "1"), some (served.world.store.now + btActiveConnectionTtl)⟩ ∧
      moment < served.world.store.now + btActiveConnectionTtl
  | .peer infoHash _ peerId, entry => ∃ served ∈ history,
      served.world.Admitted host config served.arrival ∧ served.arrival.Registers host ∧
      (served.arrival.announce host).infoHash = infoHash ∧
      (served.arrival.announce host).peerId = peerId ∧
      (∃ padding, entry = served.arrival.entryAt host config padding served.world.store.now) ∧
      moment < served.world.store.now + config.peerTtl.toNat
  | _, _ => True

namespace Filed

variable {moment later : Nat} {name : KeyName} {entry : Redis.Entry}

theorem grow (filed : Filed host config history moment name entry) (served : Served) :
    Filed host config (served :: history) moment name entry := by
  cases name with
  | connection _ | peer _ _ _ =>
      obtain ⟨source, member, rest⟩ := filed
      exact ⟨source, List.mem_cons_of_mem _ member, rest⟩
  | _ => trivial

theorem rest (filed : Filed host config history moment name entry)
    (alive : entry.aliveAt later = true) : Filed host config history later name entry := by
  cases name with
  | connection connectionId =>
      obtain ⟨source, member, connected, issued, rfl, -⟩ := filed
      exact ⟨source, member, connected, issued, rfl, of_decide_eq_true alive⟩
  | peer infoHash isSeeder peerId =>
      obtain ⟨source, member, admitted, registers, hash, peer, ⟨padding, rfl⟩, -⟩ := filed
      exact ⟨source, member, admitted, registers, hash, peer, ⟨padding, rfl⟩,
        of_decide_eq_true alive⟩
  | _ => trivial

/-- One datagram: what it files, it files for its own request, and a promotion
carries the record along with its deadline. -/
theorem serve {arrival : Arrival}
    (filed : ∀ name entry, ¬name.IsList →
      world.store.find? (name.encode host config) = some entry →
        Filed host config history world.store.now name entry)
    (notList : ¬name.IsList)
    (found : (world.serve host config arrival).2.store.find? (name.encode host config) =
      some entry) :
    Filed host config (⟨world, arrival⟩ :: history) world.store.now name entry := by
  rcases world.store_serve_cases host config arrival with
    ⟨connected, stored⟩ | ⟨admitted, updates⟩ | ⟨-, -, stored⟩
  · rcases stored with stored | stored
    · rw [stored] at found
      exact (filed _ _ notList found).grow _
    · rw [stored, World.issueCommand, Redis.Store.find?_after_setex] at found
      split at found
      · rename_i written
        have same : KeyName.connection (world.issued host config arrival).1 = name :=
          (KeyName.encode_inj host config).mp written.2
        subst same
        cases found
        exact ⟨_, List.mem_cons_self .., connected, rfl, rfl,
          Nat.lt_add_of_pos_right (by decide)⟩
      · exact (filed _ _ notList found).grow _
  · rcases updates.find?_cases found with
      kept | ⟨registers, positive, rfl, padding, rfl⟩ | ⟨_, rfl, moved⟩ | rfl
    · exact (filed _ _ notList kept).grow _
    · exact ⟨_, List.mem_cons_self .., admitted, registers, rfl, rfl, ⟨padding, rfl⟩,
        Nat.lt_add_of_pos_right (by omega)⟩
    · exact (filed (arrival.peerKeyName host false) _ (fun list => list) moved).grow _
    · trivial
  · rw [stored] at found
    exact (filed _ _ notList found).grow _

end Filed

namespace Reachable

/-- The clock only goes forward. -/
theorem past (reached : Reachable host config world history) :
    ∀ served ∈ history, served.world.store.now ≤ world.store.now := by
  obtain ⟨origin, -, run⟩ := reached
  induction run with
  | start => simp
  | serve run arrival ih =>
      intro served member
      rw [World.now_serve]
      rcases List.mem_cons.mp member with rfl | earlier
      · exact Nat.le_refl _
      · exact ih served earlier
  | rest run seconds next clock others ih =>
      intro served member
      have earlier := ih served member
      omega

/-- Every connection in the database was issued and every peer was announced. -/
theorem filed (reached : Reachable host config world history) {name : KeyName}
    {entry : Redis.Entry} (notList : ¬name.IsList)
    (found : world.store.find? (name.encode host config) = some entry) :
    Filed host config history world.store.now name entry := by
  obtain ⟨origin, empty, run⟩ := reached
  induction run generalizing name entry with
  | start =>
      rw [empty] at found
      cases found
  | serve run arrival ih =>
      rw [World.now_serve]
      exact Filed.serve (fun _ _ notList found => ih notList found) notList found
  | rest run seconds next clock others ih =>
      obtain ⟨earlier, alive⟩ := Run.find?_of_rest clock others notList found
      exact (ih notList earlier).rest alive

/-- Nothing but the keys of the grammar is ever written. -/
theorem named (reached : Reachable host config world history) {key : Bytes}
    {entry : Redis.Entry} (found : world.store.find? key = some entry) :
    ∃ name : KeyName, key = name.encode host config := by
  obtain ⟨origin, empty, run⟩ := reached
  induction run generalizing key entry with
  | start =>
      rw [empty] at found
      cases found
  | @serve world _ run arrival ih =>
      by_contra unnamed
      have other (name : KeyName) : key ≠ name.encode host config :=
        fun equal => unnamed ⟨name, equal⟩
      have same : (world.serve host config arrival).2.store.find? key =
          world.store.find? key := by
        rcases world.store_serve_cases host config arrival with
          ⟨_, stored | stored⟩ | ⟨_, updates⟩ | ⟨_, _, stored⟩
        · rw [stored]
        · rw [stored]
          refine world.store.find?_after_of_not_mem_writes fun member => ?_
          exact other (.connection _) (List.mem_singleton.mp member)
        · exact updates.find?_eq (other _) (other _) (other _)
        · rw [stored]
      rw [same] at found
      exact unnamed (ih found)
  | rest run seconds next clock others ih =>
      by_cases whitelist : key = KeyName.whitelist.encode host config
      · exact ⟨.whitelist, whitelist⟩
      · by_cases blacklist : key = KeyName.blacklist.encode host config
        · exact ⟨.blacklist, blacklist⟩
        · rw [others key whitelist blacklist] at found
          exact ih (Redis.Store.find?_of_find?_advance found).1

end Reachable

/-- An announce of `BtAnnounceReq.sample`, from 10.0.0.1 and handled without
incidents. -/
def Arrival.sample (left : BitVec 64) (event : BitVec 32) : Arrival :=
  .calm ⟨6881, 0x0100000a⟩ (BtAnnounceReq.sample left event).datagram

end BtTracker
