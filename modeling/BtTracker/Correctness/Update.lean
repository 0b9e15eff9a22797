import BtTracker.Correctness.Serve

/-!
# What a datagram does to the database

An admitted announce sends one or two commands.  `Datagram.Updates` lists
everything they may do, including when one of them gets lost, and
`Datagram.update` is what they do while Redis answers normally.
-/

namespace BtTracker

open BtTracker.Foundation

variable (host : Host) (config : BtConfig) (world : World) (arrival : Arrival)

namespace Datagram

variable (datagram : Datagram)

/-- What an admitted announce may do to the database, whichever of its commands
are executed. -/
inductive Updates (store : Redis.Store) : Redis.Store → Prop where
  | kept : Updates store store
  | inserted (registers : datagram.Registers host) (padding : Octets 6) :
      Updates store (store.after (datagram.insertCommand host config padding))
  | removed (stopped : datagram.event host = some .stopped) :
      Updates store (store.after (datagram.removeCommand host config))
  | promoted (completed : datagram.event host = some .completed) :
      Updates store (store.after (datagram.promoteCommand host config))
  | counted (completed : datagram.event host = some .completed)
      (found : store.find? (datagram.recordKey host config false) ≠ none) :
      Updates store ((store.after (datagram.promoteCommand host config)).after
        (datagram.countCommand host config))

/-- What an admitted announce does to the database while Redis answers normally, when
`malloc` leaves the given bytes behind the members of a new peer. -/
def update (padding : Octets 6) (store : Redis.Store) : Redis.Store :=
  match datagram.event host with
  | some .stopped => store.after (datagram.removeCommand host config)
  | some .completed =>
      if (store.find? (datagram.recordKey host config false)).isSome then
        (store.after (datagram.promoteCommand host config)).after
          (datagram.countCommand host config)
      else store
  | some .none | some .started => store.after (datagram.insertCommand host config padding)
  | none => store

end Datagram

/-! ## What an announce leaves alone -/

namespace Datagram

variable {host config} {datagram : Datagram}

theorem torrentKey_ne_recordKey (isSeeder : Bool) :
    datagram.torrentKey host config ≠ datagram.recordKey host config isSeeder := by
  rw [torrentKey, recordKey, Ne, KeyName.encode_inj]
  exact KeyName.noConfusion

@[simp] theorem recordKey_inj {left right : Bool} :
    datagram.recordKey host config left = datagram.recordKey host config right ↔
      left = right := by
  simp [recordKey, peerKeyName]

end Datagram

namespace Datagram.Updates

variable {host config} {datagram : Datagram} {store after : Redis.Store}

/-- An announce reaches the two keys of its peer and the key of its torrent. -/
theorem find?_eq (updates : datagram.Updates host config store after) {key : Bytes}
    (notSeeder : key ≠ datagram.recordKey host config true)
    (notLeecher : key ≠ datagram.recordKey host config false)
    (notTorrent : key ≠ datagram.torrentKey host config) :
    after.find? key = store.find? key := by
  have notRecord : key ≠ datagram.recordKey host config (datagram.isSeeder host) := by
    cases datagram.isSeeder host <;> assumption
  cases updates with
  | kept => rfl
  | inserted registers =>
      exact store.find?_after_of_not_mem_writes
        (by simp [insertCommand, Redis.Command.writes, notRecord])
  | removed stopped =>
      exact store.find?_after_of_not_mem_writes
        (by simp [removeCommand, Redis.Command.writes, notRecord])
  | promoted completed =>
      exact store.find?_after_of_not_mem_writes
        (by simp [promoteCommand, Redis.Command.writes, notSeeder, notLeecher])
  | counted completed found =>
      rw [Redis.Store.find?_after_of_not_mem_writes _
          (by simp [countCommand, Redis.Command.writes, notTorrent]),
        store.find?_after_of_not_mem_writes
          (by simp [promoteCommand, Redis.Command.writes, notSeeder, notLeecher])]

/-- Of the torrent, only the counter of downloads may change. -/
theorem sameBut_torrentKey (updates : datagram.Updates host config store after) :
    Redis.Store.SameBut (ascii "downs") (store.find? (datagram.torrentKey host config))
      (after.find? (datagram.torrentKey host config)) := by
  have promoted : (store.after (datagram.promoteCommand host config)).find?
      (datagram.torrentKey host config) = store.find? (datagram.torrentKey host config) :=
    store.find?_after_of_not_mem_writes
      (by simp [promoteCommand, Redis.Command.writes, torrentKey_ne_recordKey])
  cases updates with
  | kept => exact .same _
  | inserted registers =>
      rw [store.find?_after_of_not_mem_writes
        (by simp [insertCommand, Redis.Command.writes, torrentKey_ne_recordKey])]
      exact .same _
  | removed stopped =>
      rw [store.find?_after_of_not_mem_writes
        (by simp [removeCommand, Redis.Command.writes, torrentKey_ne_recordKey])]
      exact .same _
  | promoted completed =>
      rw [promoted]
      exact .same _
  | counted completed found =>
      rw [← promoted]
      exact Redis.Store.sameBut_after_hincrby ..

/-- An event nobody knows changes nothing. -/
theorem eq_of_unknown (updates : datagram.Updates host config store after)
    (unknown : datagram.event host = none) : after = store := by
  cases updates with
  | kept => rfl
  | inserted registers => simp [Registers, unknown] at registers
  | removed event | promoted event | counted event _ => simp [unknown] at event

end Datagram.Updates

namespace Datagram

variable (datagram : Datagram) (padding : Octets 6)

/-- The record an announce stores, with the deadline it sets. -/
def entryAt (moment : Nat) : Redis.Entry where
  value := .string ((datagram.record host padding).image host)
  expiresAt := some (moment + config.peerTtl.toNat)

@[simp] theorem now_update (store : Redis.Store) :
    (datagram.update host config padding store).now = store.now := by
  rw [update]
  split
  · exact store.now_after _
  · split
    · rw [Redis.Store.now_after, Redis.Store.now_after]
    · rfl
  · exact store.now_after _
  · exact store.now_after _
  · rfl

variable {host config datagram padding}

theorem update_of_registers (registers : datagram.Registers host) (store : Redis.Store) :
    datagram.update host config padding store =
      store.after (datagram.insertCommand host config padding) := by
  rcases registers with event | event
  · rw [update, event]
  · rw [update, event]

theorem find?_update_of_registers (registers : datagram.Registers host) (store : Redis.Store)
    (key : Bytes) :
    (datagram.update host config padding store).find? key =
      if 0 < config.peerTtl ∧ datagram.recordKey host config (datagram.isSeeder host) = key then
        some (datagram.entryAt host config padding store.now)
      else store.find? key := by
  rw [update_of_registers registers, insertCommand, Redis.Store.find?_after_setex]
  rfl

theorem find?_update_of_stopped (stopped : datagram.event host = some .stopped)
    (store : Redis.Store) (key : Bytes) :
    (datagram.update host config padding store).find? key =
      if datagram.recordKey host config (datagram.isSeeder host) = key then none
      else store.find? key := by
  rw [update, stopped]
  exact store.find?_after_del _ _

variable (config) in
/-- After a completion the peer is a seeder, with the record it had before. -/
theorem find?_update_of_completed (completed : datagram.event host = some .completed)
    (store : Redis.Store) :
    (datagram.update host config padding store).find? (datagram.recordKey host config true) =
        (store.find? (datagram.recordKey host config false)).or
          (store.find? (datagram.recordKey host config true)) ∧
      (datagram.update host config padding store).find? (datagram.recordKey host config false) =
        none := by
  rw [update, completed]
  cases found : store.find? (datagram.recordKey host config false) with
  | none => simp [found]
  | some entry =>
      have promoted (isSeeder : Bool) :
          ((store.after (datagram.promoteCommand host config)).after
              (datagram.countCommand host config)).find?
            (datagram.recordKey host config isSeeder) =
          if isSeeder then some entry else none := by
        rw [Redis.Store.find?_after_of_not_mem_writes _
          (by simp [countCommand, Redis.Command.writes, (torrentKey_ne_recordKey _).symm]),
          promoteCommand, Redis.Store.find?_after_rename _ _ found]
        cases isSeeder <;> simp
      simp [promoted]

end Datagram

namespace World

/-! ## The commands of an announce -/

/-- The promotion is counted if the server confirms it. -/
theorem run_btPromotePeer (redis : Context) (infoHashStr : Bytes) (peerId : Octets 20) :
    (world.run (btPromotePeer (some redis) config infoHashStr peerId)).2 =
      match world.command (.rename (peerKey config infoHashStr false peerId)
        (peerKey config infoHashStr true peerId)) with
      | (none, after) => after
      | (some reply, after) =>
          if reply.isError then after
          else (after.command (.hincrby (infoHashKey config infoHashStr) (ascii "downs") 1)).2 := by
  rw [btPromotePeer, redisCommand_some]
  cases sent : world.command (.rename (peerKey config infoHashStr false peerId)
    (peerKey config infoHashStr true peerId)) with
  | mk reply after =>
      simp only [Program.perform_bind, run_call, exec, sent]
      cases reply with
      | none => rfl
      | some reply =>
          dsimp only
          split <;> rfl

/-- A confirmed promotion was executed, and there was something to promote. -/
theorem command_rename_confirmed {source target : Bytes} {reply : Redis.Reply} {after : World}
    (sent : world.command (.rename source target) = (some reply, after))
    (confirmed : reply.isError = false) :
    world.store.find? source ≠ none ∧
      after.store = world.store.after (.rename source target) := by
  have replied : (world.store.deliver (world.choices 0).delivery (world.choices 0).listing
      (.rename source target)).1 = some reply := congrArg Prod.fst sent
  have stored : (world.store.deliver (world.choices 0).delivery (world.choices 0).listing
      (.rename source target)).2 = after.store := congrArg (fun result => result.2.store) sent
  cases delivery : (world.choices 0).delivery with
  | normal =>
      rw [delivery] at replied stored
      refine ⟨fun missing => ?_, stored.symm⟩
      simp only [Redis.Store.deliver, Redis.Store.exec, missing, Option.some.injEq] at replied
      subst replied
      cases confirmed
  | refused text =>
      rw [delivery] at replied
      simp only [Redis.Store.deliver, Option.some.injEq] at replied
      subst replied
      cases confirmed
  | unsent | unanswered =>
      rw [delivery] at replied
      cases replied

theorem updated_of_stopped (linked : world.Linked config arrival)
    (stopped : arrival.event host = some .stopped) :
    (world.updated host config arrival).2 =
      ((world.screened host config arrival).2.command
        (arrival.removeCommand host config)).2 := by
  obtain ⟨redis, context⟩ := Option.isSome_iff_exists.mp linked
  rw [updated, context, btUpdatePeerList, ← Datagram.event, stopped]
  rfl

theorem updated_of_completed (linked : world.Linked config arrival)
    (completed : arrival.event host = some .completed) :
    (world.updated host config arrival).2 =
      match (world.screened host config arrival).2.command
        (arrival.promoteCommand host config) with
      | (none, after) => after
      | (some reply, after) =>
          if reply.isError then after
          else (after.command (arrival.countCommand host config)).2 := by
  obtain ⟨redis, context⟩ := Option.isSome_iff_exists.mp linked
  rw [updated, context, btUpdatePeerList, ← Datagram.event, completed]
  exact run_btPromotePeer ..

/-- The bytes that `malloc` leaves behind the members of a new peer.  The address of the
sender is read before. -/
def residue : Octets 6 := ((world.screened host config arrival).2.choices 1).residue

theorem residue_of_choices {padding : Octets 6}
    (all : ∀ position, (arrival.choices position).residue = padding) :
    world.residue host config arrival = padding :=
  choices_screened host config world arrival (fun choice => choice.residue = padding) all 1

/-- The address of the sender is read right before the record is filled and stored. -/
theorem updated_of_registers (linked : world.Linked config arrival)
    (registers : arrival.Registers host) :
    (world.updated host config arrival).2 =
      ((world.screened host config arrival).2.tick.tick.command
        (arrival.insertCommand host config (world.residue host config arrival))).2 := by
  obtain ⟨redis, context⟩ := Option.isSome_iff_exists.mp linked
  have sender : (world.screened host config arrival).2.sockaddr arrival.params.fromAddr =
      arrival.sender := by
    cases arrival.params.fromAddr
    exact screened_siOther ..
  rw [updated, context, btUpdatePeerList, ← Datagram.event, Datagram.insertCommand,
    Datagram.record, ← sender]
  rcases registers with none | started
  · rw [none]
    rfl
  · rw [started]
    rfl

theorem updated_of_unknown (linked : world.Linked config arrival)
    (unknown : arrival.event host = none) :
    (world.updated host config arrival).2 = (world.screened host config arrival).2 := by
  obtain ⟨redis, context⟩ := Option.isSome_iff_exists.mp linked
  rw [updated, context, btUpdatePeerList, ← Datagram.event, unknown]
  rfl

/-- The update of the peer list is a matter of a few commands that write. -/
theorem updated_invariant (linked : world.Linked config arrival) (invariant : World → Prop)
    (tick : ∀ world, invariant world → invariant world.tick)
    (command : ∀ world request, ¬request.ReadOnly → invariant world →
      invariant (world.command request).2)
    (holds : invariant (world.screened host config arrival).2) :
    invariant (world.updated host config arrival).2 := by
  have inserted (registers : arrival.Registers host) :
      invariant (world.updated host config arrival).2 := by
    rw [updated_of_registers host config world arrival linked registers]
    exact command _ _ id (tick _ (tick _ holds))
  cases event : arrival.event host with
  | none =>
      rw [updated_of_unknown host config world arrival linked event]
      exact holds
  | some kind =>
      cases kind with
      | none => exact inserted (.inl event)
      | started => exact inserted (.inr event)
      | stopped =>
          rw [updated_of_stopped host config world arrival linked event]
          exact command _ _ id holds
      | completed =>
          rw [updated_of_completed host config world arrival linked event]
          have promoted := command _ (arrival.promoteCommand host config) id holds
          split
          · rename_i sent
            rw [sent] at promoted
            exact promoted
          · rename_i sent
            rw [sent] at promoted
            split
            · exact promoted
            · exact command _ _ id promoted

theorem updated_sent (linked : world.Linked config arrival) :
    (world.updated host config arrival).2.sent = [] :=
  updated_invariant host config world arrival linked (fun world => world.sent = [])
    (fun _ nothing => nothing) (fun _ _ _ nothing => nothing) (screened_sent host config world arrival)

/-- Every run of an admitted announce is one of the cases of `Updates`. -/
theorem updates_updated (linked : world.Linked config arrival) :
    arrival.Updates host config world.store (world.updated host config arrival).2.store := by
  have inserted (registers : arrival.Registers host) :
      arrival.Updates host config world.store (world.updated host config arrival).2.store := by
    rw [updated_of_registers host config world arrival linked registers]
    rcases command_store (world.screened host config arrival).2.tick.tick
      (arrival.insertCommand host config (world.residue host config arrival)) with kept | executed
    · rw [kept, tick, tick, screened_store]
      exact .kept
    · rw [executed, tick, tick, screened_store]
      exact .inserted registers _
  cases event : arrival.event host with
  | none =>
      rw [updated_of_unknown host config world arrival linked event, screened_store]
      exact .kept
  | some kind =>
      cases kind with
      | none => exact inserted (.inl event)
      | started => exact inserted (.inr event)
      | stopped =>
          rw [updated_of_stopped host config world arrival linked event]
          rcases command_store (world.screened host config arrival).2
            (arrival.removeCommand host config) with kept | executed
          · rw [kept, screened_store]
            exact .kept
          · rw [executed, screened_store]
            exact .removed event
      | completed =>
          rw [updated_of_completed host config world arrival linked event]
          have renamed := command_store (world.screened host config arrival).2
            (arrival.promoteCommand host config)
          rw [screened_store] at renamed
          cases sent : (world.screened host config arrival).2.command
            (arrival.promoteCommand host config) with
          | mk reply after =>
              rw [sent] at renamed
              have unconfirmed :
                  arrival.Updates host config world.store after.store := by
                rcases renamed with kept | executed
                · rw [kept]
                  exact .kept
                · rw [executed]
                  exact .promoted event
              cases reply with
              | none => exact unconfirmed
              | some reply =>
                  cases confirmed : reply.isError with
                  | true => simpa [confirmed] using unconfirmed
                  | false =>
                      obtain ⟨found, promoted⟩ := command_rename_confirmed _ sent confirmed
                      rw [screened_store] at found promoted
                      simp only [confirmed, Bool.false_eq_true, if_false]
                      rcases command_store after (arrival.countCommand host config)
                        with kept | executed
                      · rw [kept]
                        exact unconfirmed
                      · rw [executed, promoted]
                        exact .counted event found

/-- While Redis answers normally, the update is the one of `Datagram.update`. -/
theorem store_updated_of_normal (linked : world.Linked config arrival)
    (normal : arrival.Normal) :
    (world.updated host config arrival).2.store =
      arrival.update host config (world.residue host config arrival) world.store := by
  have ready := screened_normal host config world arrival normal
  have inserted (registers : arrival.Registers host) :
      (world.updated host config arrival).2.store =
        world.store.after
          (arrival.insertCommand host config (world.residue host config arrival)) := by
    have next : (world.screened host config arrival).2.tick.tick.Normal :=
      fun position => ready (position + 1 + 1)
    rw [updated_of_registers host config world arrival linked registers, next.command]
    simp only [tick, screened_store]
  cases event : arrival.event host with
  | none =>
      rw [updated_of_unknown host config world arrival linked event, screened_store,
        Datagram.update, event]
  | some kind =>
      cases kind with
      | none =>
          rw [inserted (.inl event), Datagram.update, event]
      | started =>
          rw [inserted (.inr event), Datagram.update, event]
      | stopped =>
          rw [updated_of_stopped host config world arrival linked event, ready.command,
            Datagram.update, event]
          simp only [screened_store]
      | completed =>
          rw [updated_of_completed host config world arrival linked event, ready.command,
            Datagram.update, event]
          simp only [screened_store]
          cases found : world.store.find? (arrival.recordKey host config false) with
          | none =>
              have replied : (world.store.exec
                  ((world.screened host config arrival).2.choices 0).listing
                  (arrival.promoteCommand host config)).1.isError = true := by
                simp only [Datagram.promoteCommand, Redis.Store.exec, found]
                rfl
              simp only [replied, if_true, Option.isSome_none, Bool.false_eq_true, if_false]
              exact Redis.Store.after_rename_of_none _ found
          | some entry =>
              have replied : (world.store.exec
                  ((world.screened host config arrival).2.choices 0).listing
                  (arrival.promoteCommand host config)).1.isError = false := by
                simp only [Datagram.promoteCommand, Redis.Store.exec, found]
                rfl
              have next : (World.exec (Op.redisCommand 0 (arrival.promoteCommand host config))
                  (world.screened host config arrival).2).2.Normal := ready.exec _
              simp only [exec, ready.command, screened_store] at next
              simp only [replied, Bool.false_eq_true, if_false, Option.isSome_some, if_true,
                next.command]

/-! ## The database after a datagram -/

/-- Every effect a datagram may have on the database. -/
theorem store_serve_cases :
    (world.Connected host config arrival ∧
      ((world.serve host config arrival).2.store = world.store ∨
        (world.serve host config arrival).2.store =
          world.store.after (world.issueCommand host config arrival))) ∨
    (world.Admitted host config arrival ∧
      arrival.Updates host config world.store (world.serve host config arrival).2.store) ∨
    (¬world.Connected host config arrival ∧ ¬world.Admitted host config arrival ∧
      (world.serve host config arrival).2.store = world.store) := by
  by_cases connected : world.Connected host config arrival
  · refine .inl ⟨connected, ?_⟩
    have outcome := command_store (world.issued host config arrival).2
      (world.issueCommand host config arrival)
    rw [issued_store] at outcome
    rw [(serve_of_connected host config world arrival connected).2.1]
    exact outcome
  · by_cases admitted : world.Admitted host config arrival
    · refine .inr (.inl ⟨admitted, ?_⟩)
      rw [store_serve_of_admitted host config world arrival admitted]
      exact updates_updated host config world arrival admitted.accepted.1
    · exact .inr (.inr ⟨connected, admitted,
        store_serve_of_idle host config world arrival connected admitted⟩)

/-- Only an admitted announce touches the records of peers. -/
theorem records_serve_cases :
    (world.Admitted host config arrival ∧
        arrival.Updates host config world.store (world.serve host config arrival).2.store) ∨
      ∀ infoHash isSeeder peerId,
        (world.serve host config arrival).2.store.find?
            ((KeyName.peer infoHash isSeeder peerId).encode host config) =
          world.store.find? ((KeyName.peer infoHash isSeeder peerId).encode host config) := by
  rcases world.store_serve_cases host config arrival with
    ⟨_, stored | stored⟩ | announced | ⟨_, _, stored⟩
  · exact .inr fun _ _ _ => by rw [stored]
  · refine .inr fun infoHash isSeeder peerId => ?_
    rw [stored]
    refine world.store.find?_after_of_not_mem_writes fun member => ?_
    exact KeyName.encode_peer_ne_connectionKey host config _ _ _ _ (List.mem_singleton.mp member)
  · exact .inl announced
  · exact .inr fun _ _ _ => by rw [stored]

theorem store_serve_of_admitted_normal (admitted : world.Admitted host config arrival)
    (normal : arrival.Normal) :
    (world.serve host config arrival).2.store =
      arrival.update host config (world.residue host config arrival) world.store := by
  rw [store_serve_of_admitted host config world arrival admitted,
    store_updated_of_normal host config world arrival admitted.accepted.1 normal]

@[simp] theorem now_serve :
    (world.serve host config arrival).2.store.now = world.store.now := now_run ..

end World

end BtTracker
