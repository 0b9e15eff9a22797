import BtTracker.Correctness.PeerLists
import BtTracker.Correctness.Records
import BtTracker.Correctness.Screening

/-!
# A datagram that arrives twice

The network may duplicate a datagram, and a client that gets no answer sends it
again.  The second copy of an announce finds the database as the first one left
it and changes nothing but the bytes that `malloc` left behind a record, not even the
counter of downloads.  It is answered in the same way, unless one of the two runs fails
to gather its peers.
-/

namespace BtTracker

open BtTracker.Foundation

variable {host : Host} {config : BtConfig}

/-! ## The database -/

namespace Datagram

variable (datagram : Datagram)

/-- Once a completed leecher is promoted, there is nothing left to promote, and a record is
replaced by the last one. -/
theorem update_update (padding other : Octets 6) (store : Redis.Store) :
    datagram.update host config other (datagram.update host config padding store) =
      datagram.update host config other store := by
  have renewed (registers : datagram.Registers host) :
      datagram.update host config other (datagram.update host config padding store) =
        datagram.update host config other store := by
    ext key
    · rw [now_update, now_update, now_update]
    · rw [find?_update_of_registers registers, find?_update_of_registers registers,
        find?_update_of_registers registers, now_update]
      split <;> rfl
  cases event : datagram.event host with
  | none => simp only [update, event]
  | some kind =>
      cases kind with
      | none => exact renewed (.inl event)
      | started => exact renewed (.inr event)
      | stopped =>
          ext key
          · rw [now_update, now_update, now_update]
          · rw [find?_update_of_stopped event, find?_update_of_stopped event,
              find?_update_of_stopped event]
            split <;> rfl
      | completed =>
          have gone : (datagram.update host config padding store).find?
              (datagram.recordKey host config false) = none :=
            (find?_update_of_completed config event store).2
          have same : datagram.update host config other store =
              datagram.update host config padding store := by
            rw [update, update, event]
          rw [same, update, event]
          dsimp only
          rw [gone]
          rfl

/-- A record that is stored keeps the bytes `malloc` left behind it. -/
theorem update_eq_iff (padding other : Octets 6) (store : Redis.Store) :
    datagram.update host config other store = datagram.update host config padding store ↔
      (datagram.Registers host → 0 < config.peerTtl → other = padding) := by
  by_cases registers : datagram.Registers host
  · by_cases positive : 0 < config.peerTtl
    · constructor
      · intro same _ _
        have found := congrArg
          (Redis.Store.find? · (datagram.recordKey host config (datagram.isSeeder host))) same
        simp only [find?_update_of_registers registers, positive, true_and, if_true,
          Option.some.injEq, entryAt, Redis.Entry.mk.injEq, Redis.Value.string.injEq] at found
        have tails := congrArg (List.drop 34) found.1
        rw [BtPeer.image, BtPeer.image, List.drop_left' (by simp), List.drop_left' (by simp)] at tails
        exact List.ofFn_injective tails
      · intro same
        rw [same registers positive]
    · have kept (padding : Octets 6) : datagram.update host config padding store = store := by
        ext key
        · rw [now_update]
        · rw [find?_update_of_registers registers, if_neg fun both => positive both.1]
      rw [kept, kept]
      exact ⟨fun _ _ positive' => absurd positive' positive, fun _ => rfl⟩
  · refine ⟨fun _ registers' => absurd registers' registers, fun _ => ?_⟩
    rw [update, update]
    cases event : datagram.event host with
    | none => rfl
    | some kind =>
        cases kind with
        | none => exact absurd (.inl event) registers
        | started => exact absurd (.inr event) registers
        | stopped | completed => rfl

/-- The keys of the records of the announcing peer. -/
def Owns (host : Host) (config : BtConfig) (datagram : Datagram) (key : Bytes) : Prop :=
  ∃ isSeeder, key = datagram.recordKey host config isSeeder

variable (host config) in
/-- These bytes aside, it does not matter what `malloc` does. -/
theorem update_matches_self (padding other : Octets 6) (store : Redis.Store) :
    (datagram.update host config other store).Matches (datagram.Owns host config)
      (datagram.update host config padding store) := by
  refine update_matches (fun isSeeder => ⟨isSeeder, rfl⟩) ?_ (.refl _ store) other padding
  rintro ⟨isSeeder, same⟩
  exact torrentKey_ne_recordKey isSeeder same

end Datagram

/-- Databases that match list as many peers. -/
theorem length_roleKeys_of_matches {filed : Bytes → Prop} {left right : Redis.Store}
    (same : left.Matches filed right) (config : BtConfig) (infoHashStr : Bytes)
    (isSeeder : Bool) :
    (roleKeys config left infoHashStr isSeeder).length =
      (roleKeys config right infoHashStr isSeeder).length := by
  have listed : left.keys.Perm right.keys := by
    rw [List.perm_ext_iff_of_nodup left.nodup_keys right.nodup_keys]
    intro key
    rw [Redis.Store.mem_keys, Redis.Store.mem_keys, ← Option.isSome_iff_exists,
      ← Option.isSome_iff_exists, same.isSome_eq]
  exact (listed.filter _).length_eq

/-! ## The checks -/

namespace World

section Checks

variable {world later : World} {first second : Arrival}
  (same : second.toDatagram = first.toDatagram)
  (linked : world.Linked config first) (linkedAgain : later.Linked config second)
  (normal : first.Normal) (normalAgain : second.Normal)

include same linked linkedAgain normal normalAgain in
/-- The validation depends on the entry of the connection. -/
theorem validated_congr (announces : first.action host = some .announce)
    (connection : later.store.find? (first.connectionKey host config) =
      world.store.find? (first.connectionKey host config)) :
    (later.validated host config second).1 = (world.validated host config first).1 := by
  have announcesAgain : second.action host = some .announce := same ▸ announces
  by_cases short : first.TooShort host
  · rw [validated_of_tooShort short, validated_of_tooShort (same ▸ short)]
  · rw [validated_of_normal linked normal (.inl announces) short,
      validated_of_normal linkedAgain normalAgain (.inl announcesAgain) (same ▸ short), same,
      Redis.Store.reply_of_subject rfl connection]

include same linked linkedAgain normal normalAgain in
/-- The check against the restriction depends on the set that is consulted. -/
theorem screened_congr
    (list : config.infoHashRestriction ≠ .none →
      later.store.find? (restrictionKey config config.infoHashRestriction.listName) =
        world.store.find? (restrictionKey config config.infoHashRestriction.listName)) :
    (later.screened host config second).1 = (world.screened host config first).1 := by
  rw [screened_of_normal linked normal, screened_of_normal linkedAgain normalAgain, same]
  by_cases unrestricted : config.infoHashRestriction = .none
  · rw [unrestricted]
    rfl
  · rw [Redis.Store.reply_of_subject rfl (list unrestricted)]

end Checks

/-- An announce leaves alone what the checks look at. -/
theorem find?_serve_of_announces {world : World} {arrival : Arrival}
    (announces : arrival.action host = some .announce) (name : KeyName)
    (notPeer : ∀ infoHash isSeeder peerId, name ≠ .peer infoHash isSeeder peerId)
    (notTorrent : ∀ infoHash, name ≠ .torrent infoHash) :
    (world.serve host config arrival).2.store.find? (name.encode host config) =
      world.store.find? (name.encode host config) := by
  have other {kind : KeyName} (different : name ≠ kind) :
      name.encode host config ≠ kind.encode host config :=
    mt (KeyName.encode_inj host config).mp different
  rcases world.store_serve_cases host config arrival with ⟨connected, _⟩ | ⟨_, updates⟩ | ⟨_, _, kept⟩
  · rw [connected.action] at announces
    cases announces
  · exact updates.find?_eq (other (notPeer _ _ _)) (other (notPeer _ _ _)) (other (notTorrent _))
  · rw [kept]

end World

/-! ## Two copies -/

/-- The same datagram, handled under other circumstances. -/
def Arrival.again (arrival : Arrival) (choices : Nat → Choice) : Arrival :=
  { arrival with choices := choices }

/-- Two responses of the same kind: none, errors, or answers to an announce that
report the same swarm. -/
inductive Alike (host : Host) : List (SockaddrIn × Block) → List (SockaddrIn × Block) → Prop where
  | absent : Alike host [] []
  | errors (sender : SockaddrIn) (transactionId : BitVec 32) (left right : Bytes) :
      Alike host [(sender, errorBlock host transactionId left)]
        [(sender, errorBlock host transactionId right)]
  | answers (sender : SockaddrIn) {left right : BtAnnounceResp} (peers others : List BtPeerAddr)
      (leftAction : left.action = BtAction.announce.toWord)
      (rightAction : right.action = BtAction.announce.toWord)
      (seeders : left.seeders = right.seeders) (leechers : left.leechers = right.leechers) :
      Alike host [(sender, .ofBytes (announceHeader host left ++ peers.flatMap (peerEntry host)))]
        [(sender, .ofBytes (announceHeader host right ++ others.flatMap (peerEntry host)))]

theorem Alike.eq_nil_iff {left right : List (SockaddrIn × Block)} (alike : Alike host left right) :
    left = [] ↔ right = [] := by
  cases alike <;> simp

/-- A second copy of a datagram leaves the same database and is answered like the first. -/
structure Repeats (host : Host) (config : BtConfig) (same : Redis.Store → Redis.Store → Prop)
    (world : World) (arrival : Arrival) (choices : Nat → Choice) : Prop where
  store : same
    ((world.serve host config arrival).2.serve host config (arrival.again choices)).2.store
    (world.serve host config arrival).2.store
  responses : Alike host (world.serve host config arrival).2.sent
    ((world.serve host config arrival).2.serve host config (arrival.again choices)).2.sent

/-- An announce gathers its peers from the updated database: every index drawn is the index
of a key, and there is a record to be read under every key that is picked. -/
def World.GathersPeers (host : Host) (config : BtConfig) (world : World) (arrival : Arrival) :
    Prop :=
  let store := arrival.update host config (world.residue host config arrival) world.store
  Gathers host store (world.updated host config arrival).2.choices
    (arrival.oppositeKeys host config store) (arrival.siblingKeys host config store)
    (arrival.wanted host config)

namespace World

section Copies

variable {world : World} {arrival : Arrival} {choices : Nat → Choice}
  (announces : arrival.action host = some .announce)
  (works : world.RedisWorks arrival) (normal : arrival.Normal)
  (worksAgain : (world.serve host config arrival).2.RedisWorks (arrival.again choices))
  (normalAgain : (arrival.again choices).Normal)

include announces works normal worksAgain normalAgain in
/-- The checks come to the same result. -/
theorem checks_again :
    ((world.serve host config arrival).2.validated host config (arrival.again choices)).1 =
        (world.validated host config arrival).1 ∧
      ((world.serve host config arrival).2.screened host config (arrival.again choices)).1 =
        (world.screened host config arrival).1 := by
  have linked := (world.linked_iff config arrival).mpr works
  have linkedAgain := (linked_iff config _ (arrival.again choices)).mpr worksAgain
  constructor
  · exact validated_congr rfl linked linkedAgain normal normalAgain announces
      (find?_serve_of_announces announces (.connection _) nofun nofun)
  · refine screened_congr rfl linked linkedAgain normal normalAgain fun restricted => ?_
    cases mode : config.infoHashRestriction with
    | none => exact absurd mode restricted
    | whitelist => exact find?_serve_of_announces announces .whitelist nofun nofun
    | blacklist => exact find?_serve_of_announces announces .blacklist nofun nofun

include announces works normal worksAgain normalAgain in
/-- An announce that is rejected or refused is rejected or refused again. -/
theorem repeats_of_idle {same : Redis.Store → Redis.Store → Prop}
    (reflexive : ∀ store, same store store) (idle : ¬world.Admitted host config arrival) :
    Repeats host config same world arrival choices := by
  have linked := (world.linked_iff config arrival).mpr works
  have linkedAgain := (linked_iff config _ (arrival.again choices)).mpr worksAgain
  obtain ⟨validated, screened⟩ := checks_again announces works normal worksAgain normalAgain
  obtain ⟨valid, checked⟩ := world.validated_ok host config arrival linked
  cases valid with
  | false =>
      have harmless : arrival.action host ≠ some .error := by
        rw [announces]
        nofun
      obtain ⟨-, -, nothing⟩ := world.serve_of_rejected host config arrival linked checked harmless
      obtain ⟨-, kept, nothingAgain⟩ := serve_of_rejected host config _ (arrival.again choices)
        linkedAgain (validated.trans checked) harmless
      constructor
      · rw [kept]
        exact reflexive _
      · rw [nothing, nothingAgain]
        exact .absent
  | true =>
      obtain ⟨refused, judged⟩ := world.screened_ok host config arrival linked
      cases refused with
      | false => exact absurd ⟨announces, ⟨linked, checked⟩, judged⟩ idle
      | true =>
          obtain ⟨-, -, error⟩ := world.serve_of_refused host config arrival announces
            ⟨linked, checked⟩ judged
          obtain ⟨-, kept, errorAgain⟩ := serve_of_refused host config _ (arrival.again choices)
            announces ⟨linkedAgain, validated.trans checked⟩ (screened.trans judged)
          constructor
          · rw [kept]
            exact reflexive _
          · rw [error, errorAgain]
            exact .errors ..

variable (admitted : world.Admitted host config arrival)

include announces works normal worksAgain normalAgain admitted in
theorem admitted_again :
    (world.serve host config arrival).2.Admitted host config (arrival.again choices) := by
  have linkedAgain := (linked_iff config _ (arrival.again choices)).mpr worksAgain
  obtain ⟨validated, screened⟩ := checks_again announces works normal worksAgain normalAgain
  exact ⟨announces, ⟨linkedAgain, validated.trans admitted.accepted.2⟩,
    screened.trans admitted.permitted⟩

include admitted in
/-- The kind of response an admitted announce gets. -/
theorem sent_cases (normal : arrival.Normal) :
    (world.GathersPeers host config arrival ∧
      ∃ peers, (world.serve host config arrival).2.sent = [(arrival.sender,
        arrival.answerBlock host config
          (arrival.update host config (world.residue host config arrival) world.store) peers)]) ∨
    (¬world.GathersPeers host config arrival ∧ (world.serve host config arrival).2.sent = []) := by
  by_cases gathers : world.GathersPeers host config arrival
  · obtain ⟨peers, complement, sent, -, -⟩ := sent_of_gathers admitted normal rfl gathers
    exact .inl ⟨gathers, _, sent⟩
  · exact .inr ⟨gathers, sent_of_not_gathers admitted normal rfl gathers⟩

include announces works normal worksAgain normalAgain admitted in
/-- The second copy of an admitted announce replaces a record by itself, and is answered
like the first one if both gather their peers or none does. -/
theorem repeats_iff_of_admitted (same : Redis.Store → Redis.Store → Prop) :
    Repeats host config same world arrival choices ↔
      same (arrival.update host config ((world.serve host config arrival).2.residue host config
          (arrival.again choices)) world.store)
        (arrival.update host config (world.residue host config arrival) world.store) ∧
      (world.GathersPeers host config arrival ↔
        (world.serve host config arrival).2.GathersPeers host config (arrival.again choices)) := by
  have again := admitted_again announces works normal worksAgain normalAgain admitted
  have stored := world.store_serve_of_admitted_normal host config arrival admitted normal
  have storedAgain := store_serve_of_admitted_normal host config _ _ again normalAgain
  have settled : (arrival.again choices).update host config ((world.serve host config
      arrival).2.residue host config (arrival.again choices))
        (world.serve host config arrival).2.store =
      arrival.update host config ((world.serve host config arrival).2.residue host config
        (arrival.again choices)) world.store := by
    rw [stored]
    exact arrival.update_update _ _ world.store
  have first := sent_cases admitted normal
  have second := sent_cases again normalAgain
  rw [settled] at second storedAgain
  have matched := arrival.update_matches_self host config (world.residue host config arrival)
    ((world.serve host config arrival).2.residue host config (arrival.again choices)) world.store
  constructor
  · rintro ⟨store, responses⟩
    rw [stored, storedAgain] at store
    refine ⟨store, ?_⟩
    rcases first with ⟨gathers, peers, sent⟩ | ⟨fails, nothing⟩
    · rcases second with ⟨gathersAgain, -⟩ | ⟨-, nothingAgain⟩
      · exact iff_of_true gathers gathersAgain
      · cases sent.symm.trans (responses.eq_nil_iff.mpr nothingAgain)
    · rcases second with ⟨-, others, sentAgain⟩ | ⟨failsAgain, -⟩
      · cases sentAgain.symm.trans (responses.eq_nil_iff.mp nothing)
      · exact iff_of_false fails failsAgain
  · rintro ⟨store, both⟩
    refine ⟨by rw [stored, storedAgain]; exact store, ?_⟩
    rcases first with ⟨gathers, peers, sent⟩ | ⟨fails, nothing⟩
    · rcases second with ⟨-, others, sentAgain⟩ | ⟨failsAgain, -⟩
      · have action : (arrival.request host).action = BtAction.announce.toWord :=
          BtAction.ofWord?_eq_some.mp announces
        rw [sent, sentAgain]
        exact .answers arrival.sender peers others action action
          (congrArg (BitVec.ofNat 32) (length_roleKeys_of_matches matched ..)).symm
          (congrArg (BitVec.ofNat 32) (length_roleKeys_of_matches matched ..)).symm
      · exact absurd (both.mp gathers) failsAgain
    · rcases second with ⟨gathersAgain, -⟩ | ⟨-, nothingAgain⟩
      · exact absurd (both.mpr gathersAgain) fails
      · rw [nothing, nothingAgain]
        exact .absent

end Copies

end World

/-- An environment that draws the largest random number whenever it is asked. -/
def Choice.unlucky : Choice := { Choice.calm with random := Fin.last randMax }

/-- The first announce of a leecher, handled in such an environment. -/
def unluckySample : Arrival := (Arrival.sample 5 2).again fun _ => .unlucky

/-- The peers are gathered where the records are full and no number drawn is the largest. -/
theorem World.gathersPeers_of_reachable {world : World} {arrival : Arrival} {history : List Served}
    (reached : Reachable host config (world.serve host config arrival).2 history)
    (admitted : world.Admitted host config arrival) (normal : arrival.Normal)
    (plain : config.Plain)
    (few : ∀ isSeeder, (arrival.swarmKeys host config (world.serve host config arrival).2.store
      isSeeder).length ≤ 2 ^ 31)
    (smaller : ∀ position, (arrival.choices position).random.val ≠ randMax) :
    world.GathersPeers host config arrival := by
  have stored := world.store_serve_of_admitted_normal host config arrival admitted normal
  rw [stored] at few
  have recorded := reached.recorded plain (arrival.announce host).infoHash
  rw [stored] at recorded
  have drawn := world.choices_updated host config arrival
    (fun choice => choice.random.val ≠ randMax) smaller
  exact .of_recorded (recorded _) (recorded _) (.of_ne_randMax (few _) (few _) drawn)

end BtTracker
