import BtTracker.Specification.Tracker
import BtTracker.Correctness.Effort
import BtTracker.Correctness.Conduct

/-!
# The state of a tracker in a keyspace

A tracker keeps its tokens, its records and its counters under the keys of the
grammar.  Each command the jobs send changes the keyspace as one event changes
the state it stands for, except for the counter of downloads, which a completed
download reaches with a command of its own.
-/

namespace BtTracker

open BtTracker.Foundation BtTracker.Specification

/-- The state of the tracker: tokens are connection identifiers, torrents and
peers are known by their twenty bytes. -/
abbrev TrackerState := Tracker (BitVec 64) (Octets 20) (Octets 20) BtPeer

/-- What may happen to the tracker. -/
abbrev TrackerEvent := Event (BitVec 64) (Octets 20) (Octets 20) BtPeer

/-- The greatest value of a counter. -/
def countMax : Nat := 2 ^ 63 - 1

/-- The terms a configuration gives. -/
def BtConfig.terms (config : BtConfig) : Terms where
  tokenTtl := btActiveConnectionTtl
  recordTtl := config.peerTtl.toNat
  counterMax := countMax

variable (host : Host) (config : BtConfig)

/-- The command of `bt_insert_connection`. -/
def grantCommand (connectionId : BitVec 64) : Redis.Command :=
  .setex (connectionKey host config connectionId) btActiveConnectionTtl (ascii "1")

/-- What a tracker files under a name. -/
def filed (tracker : TrackerState) : KeyName → Option Redis.Entry
  | .connection connectionId =>
      (tracker.tokens connectionId).map fun deadline => ⟨.string (ascii "1"), some deadline⟩
  | .peer infoHash isSeeder peerId =>
      (tracker.records (infoHash, isSeeder, peerId)).map fun record =>
        ⟨.string (record.1.image host), some record.2⟩
  | _ => none

/-- Names of tokens and of records. -/
def KeyName.Expires : KeyName → Prop
  | .connection _ | .peer _ _ _ => True
  | _ => False

/-- A database that holds the state of a tracker, with the given counters and
nothing else but the lists of info hashes. -/
structure Represents (tracker : TrackerState) (counters : Octets 20 → Nat)
    (store : Redis.Store) : Prop where
  clock : store.now = tracker.now
  entries : ∀ name : KeyName, name.Expires →
    store.find? (name.encode host config) = filed host tracker name
  counts : ∀ infoHash, store.HoldsCount ((KeyName.torrent infoHash).encode host config)
    (ascii "downs") (counters infoHash)
  nothing : ∀ key, (∀ name : KeyName, key ≠ name.encode host config) → store.find? key = none

variable {host config}

section Filed

variable {tracker : TrackerState} {infoHash peerId : Octets 20} {isSeeder : Bool}

/-- A record is filed under its own name. -/
theorem filed_file_self (record : Option (BtPeer × Nat)) :
    filed host (tracker.file (infoHash, isSeeder, peerId) record)
        (.peer infoHash isSeeder peerId) =
      record.map fun record => ⟨.string (record.1.image host), some record.2⟩ := by
  simp only [filed, Tracker.file, Function.update_self]

/-- Filing a record leaves the other names alone. -/
theorem filed_file_of_ne (record : Option (BtPeer × Nat)) {name : KeyName}
    (other : KeyName.peer infoHash isSeeder peerId ≠ name) :
    filed host (tracker.file (infoHash, isSeeder, peerId) record) name =
      filed host tracker name := by
  cases name with
  | peer otherHash otherRole otherPeer =>
      have different : (otherHash, otherRole, otherPeer) ≠ (infoHash, isSeeder, peerId) := by
        intro same
        cases same
        exact other rfl
      simp only [filed, Tracker.file, Function.update_of_ne different]
  | _ => rfl

@[simp] theorem filed_count (name : KeyName) :
    filed host (tracker.count config.terms infoHash) name = filed host tracker name := by
  cases name <;> rfl

end Filed

namespace Represents

variable {tracker : TrackerState} {counters : Octets 20 → Nat} {store after : Redis.Store}

/-- An empty database. -/
theorem empty : Represents host config Tracker.initial (fun _ => 0) .empty where
  clock := rfl
  entries name expires := by
    rw [Redis.Store.find?_empty]
    cases name <;> rfl
  counts infoHash := .inl ⟨rfl, Redis.Store.find?_empty _⟩
  nothing key _ := Redis.Store.find?_empty key

/-- Time passes in the database as it does in the tracker. -/
theorem advance (represents : Represents host config tracker counters store) (seconds : Nat) :
    Represents host config (tracker.step config.terms (.wait seconds)) counters
      (store.advance seconds) where
  clock := congrArg (· + seconds) represents.clock
  entries name expires := by
    rw [Redis.Store.find?_advance, represents.entries name expires, represents.clock]
    cases name with
    | connection connectionId =>
        simp only [filed, Tracker.step, Option.filter_map]
        rfl
    | peer infoHash isSeeder peerId =>
        simp only [filed, Tracker.step, Option.filter_map]
        rfl
    | _ => exact expires.elim
  counts infoHash := (represents.counts infoHash).advance seconds
  nothing key outside := by
    rw [Redis.Store.find?_advance, represents.nothing key outside]
    rfl

/-- A command that writes nothing but entries which expire. -/
theorem write (represents : Represents host config tracker counters store)
    {request : Redis.Command} {next : TrackerState} (clock : next.now = tracker.now)
    (expiring : ∀ key ∈ request.writes, ∃ name : KeyName, name.Expires ∧
      key = name.encode host config)
    (entries : ∀ name : KeyName, name.Expires →
      (store.after request).find? (name.encode host config) = filed host next name) :
    Represents host config next counters (store.after request) where
  clock := by rw [store.now_after, represents.clock, clock]
  entries := entries
  counts infoHash := by
    apply (represents.counts infoHash).of_find?
    apply store.find?_after_of_not_mem_writes
    intro member
    obtain ⟨name, expires, same⟩ := expiring _ member
    rw [← (KeyName.encode_inj host config).mp same] at expires
    exact expires
  nothing key outside := by
    rw [store.find?_after_of_not_mem_writes]
    · exact represents.nothing key outside
    · intro member
      obtain ⟨name, _, same⟩ := expiring key member
      exact outside name same

/-- A connection identifier is granted. -/
theorem issue (represents : Represents host config tracker counters store)
    (connectionId : BitVec 64) :
    Represents host config (tracker.step config.terms (.issue connectionId)) counters
      (store.after (grantCommand host config connectionId)) := by
  have expiring : ∀ key ∈ (grantCommand host config connectionId).writes,
      ∃ name : KeyName, name.Expires ∧ key = name.encode host config := by
    intro key member
    exact ⟨.connection connectionId, trivial, List.mem_singleton.mp member⟩
  apply write represents _ expiring
  · intro name expires
    rw [grantCommand, Redis.Store.find?_after_setex, represents.entries name expires,
      represents.clock]
    by_cases same : KeyName.connection connectionId = name
    · subst same
      rw [if_pos ⟨by decide, rfl⟩]
      simp only [filed, Tracker.step, Function.update_self]
      rfl
    · have unwritten (both : (0 : Int) < btActiveConnectionTtl ∧
          connectionKey host config connectionId = name.encode host config) : False :=
        same (KeyName.encode_injective host config both.2)
      rw [if_neg unwritten]
      cases name with
      | connection other =>
          have different : other ≠ connectionId := fun equal => same (by rw [equal])
          simp only [filed, Tracker.step, Function.update_of_ne different]
      | _ => rfl
  · rfl

/-- A peer is registered, unless its record would expire at once. -/
theorem register (represents : Represents host config tracker counters store)
    (infoHash : Octets 20) (isSeeder : Bool) (peerId : Octets 20) (record : BtPeer) :
    Represents host config
      (tracker.step config.terms (.register infoHash isSeeder peerId record)) counters
      (store.after (.setex ((KeyName.peer infoHash isSeeder peerId).encode host config)
        config.peerTtl (record.image host))) := by
  apply represents.write
  · rw [Tracker.step]
    split <;> rfl
  · intro key member
    exact ⟨.peer infoHash isSeeder peerId, trivial, List.mem_singleton.mp member⟩
  · intro name expires
    have positive : 0 < config.peerTtl ↔ 0 < config.terms.recordTtl := by
      simp only [BtConfig.terms]
      omega
    rw [Redis.Store.find?_after_setex, represents.entries name expires, represents.clock,
      Tracker.step]
    by_cases lasting : 0 < config.terms.recordTtl
    · rw [if_pos lasting]
      by_cases same : KeyName.peer infoHash isSeeder peerId = name
      · subst same
        rw [if_pos ⟨positive.mpr lasting, rfl⟩, filed_file_self]
        rfl
      · rw [if_neg fun both => same ((KeyName.encode_inj host config).mp both.2),
          filed_file_of_ne _ same]
    · rw [if_neg lasting, if_neg fun both => lasting (positive.mp both.1)]

/-- A peer leaves. -/
theorem leave (represents : Represents host config tracker counters store)
    (infoHash : Octets 20) (isSeeder : Bool) (peerId : Octets 20) :
    Represents host config (tracker.step config.terms (.leave infoHash isSeeder peerId)) counters
      (store.after (.del ((KeyName.peer infoHash isSeeder peerId).encode host config))) := by
  apply represents.write
  · rfl
  · intro key member
    exact ⟨.peer infoHash isSeeder peerId, trivial, List.mem_singleton.mp member⟩
  · intro name expires
    rw [Redis.Store.find?_after_del, represents.entries name expires, Tracker.step]
    by_cases same : KeyName.peer infoHash isSeeder peerId = name
    · subst same
      rw [if_pos rfl, filed_file_self]
      rfl
    · rw [if_neg fun equal => same ((KeyName.encode_inj host config).mp equal),
        filed_file_of_ne _ same]

/-- A leecher completes its download.  The counter is not part of it. -/
theorem complete (represents : Represents host config tracker counters store)
    (infoHash peerId : Octets 20) :
    Represents host config (tracker.step config.terms (.complete infoHash peerId)) counters
      (store.after (.rename ((KeyName.peer infoHash false peerId).encode host config)
        ((KeyName.peer infoHash true peerId).encode host config))) := by
  have leecher := represents.entries (.peer infoHash false peerId) trivial
  rw [filed] at leecher
  cases found : tracker.records (infoHash, false, peerId) with
  | none =>
      rw [found] at leecher
      rw [Redis.Store.after_rename_of_none _ leecher]
      simpa only [Tracker.step, found] using represents
  | some record =>
      rw [found] at leecher
      apply represents.write
      · simp only [Tracker.step, found]
        rfl
      · intro key member
        rcases List.mem_pair.mp member with source | target
        · exact ⟨.peer infoHash false peerId, trivial, source⟩
        · exact ⟨.peer infoHash true peerId, trivial, target⟩
      · intro name expires
        rw [Redis.Store.find?_after_rename _ _ leecher, represents.entries name expires]
        simp only [Tracker.step, found, filed_count]
        by_cases promoted : KeyName.peer infoHash true peerId = name
        · subst promoted
          rw [if_pos rfl, filed_file_self]
          rfl
        · rw [if_neg fun equal => promoted ((KeyName.encode_inj host config).mp equal),
            filed_file_of_ne _ promoted]
          by_cases left : KeyName.peer infoHash false peerId = name
          · subst left
            rw [if_pos rfl, filed_file_self]
            rfl
          · rw [if_neg fun equal => left ((KeyName.encode_inj host config).mp equal),
              filed_file_of_ne _ left]

/-- A counter is incremented, or stays where it is when it is full. -/
theorem count (represents : Represents host config tracker counters store)
    (infoHash : Octets 20) (bounded : counters infoHash ≤ countMax) :
    Represents host config tracker
      (Function.update counters infoHash (min (counters infoHash + 1) countMax))
      (store.after (.hincrby ((KeyName.torrent infoHash).encode host config)
        (ascii "downs") 1)) where
  clock := by rw [store.now_after, represents.clock]
  entries name expires := by
    rw [store.find?_after_of_not_mem_writes]
    · exact represents.entries name expires
    · intro member
      rw [(KeyName.encode_inj host config).mp (List.mem_singleton.mp member)] at expires
      exact expires
  counts other := by
    by_cases same : other = infoHash
    · subst same
      rw [Function.update_self]
      rw [countMax] at bounded ⊢
      by_cases full : counters other + 1 ≤ 2 ^ 63 - 1
      · rw [Nat.min_eq_left full]
        exact (represents.counts other).increment (by omega)
      · have kept : min (counters other + 1) (2 ^ 63 - 1) = counters other := by omega
        rw [kept]
        exact (represents.counts other).increment_of_full (by omega) (by omega)
    · rw [Function.update_of_ne same]
      apply (represents.counts other).of_find?
      apply store.find?_after_of_not_mem_writes
      intro member
      have equal := (KeyName.encode_inj host config).mp (List.mem_singleton.mp member)
      exact same (KeyName.torrent.inj equal)
  nothing key outside := by
    rw [store.find?_after_of_not_mem_writes]
    · exact represents.nothing key outside
    · intro member
      exact outside _ (List.mem_singleton.mp member)

/-- The lists of info hashes are none of the tracker's business. -/
theorem edit (represents : Represents host config tracker counters store) {list : KeyName}
    (isList : list.IsList) (entry : Redis.Entry) :
    Represents host config tracker counters (store.put (list.encode host config) entry) := by
  have untouched {name : KeyName} (notList : ¬name.IsList) :
      (store.put (list.encode host config) entry).find? (name.encode host config) =
        store.find? (name.encode host config) := by
    apply store.find?_put_of_ne
    intro equal
    rw [(KeyName.encode_inj host config).mp equal] at isList
    exact notList isList
  constructor
  · exact represents.clock
  · intro name expires
    rw [untouched]
    · exact represents.entries name expires
    · cases name <;> first | exact id | exact expires.elim
  · intro infoHash
    exact (represents.counts infoHash).of_find? (untouched id)
  · intro key outside
    rw [store.find?_put_of_ne _ (outside list).symm]
    exact represents.nothing key outside

end Represents

/-! ## Grants -/

/-- Whatever is stored under the key of a connection identifier grants it. -/
def Op.Grants (host : Host) (config : BtConfig) : Op → Prop
  | .redisCommand _ (.setex key seconds value) => ∀ connectionId,
      key = connectionKey host config connectionId →
        Redis.Command.setex key seconds value = grantCommand host config connectionId
  | _ => True

theorem Worker.Observes.grants {α : Type} {program : Worker α} (observes : program.Observes) :
    Program.Performs (Op.Grants host config) (fun _ => True) program := by
  apply observes.mono
  · intro op observes
    cases op with
    | redisCommand redis request =>
        cases request with
        | setex key seconds value => exact observes.elim
        | _ => trivial
    | _ => trivial
  · exact fun _ _ => trivial

/-- A command that does not store anything, or only in the right way. -/
theorem redisCommand_grants (redis : Option Context) {request : Redis.Command}
    (grants : ∀ context, (Op.redisCommand context request).Grants host config) :
    Program.Performs (Op.Grants host config) (fun _ => True) (redisCommand redis request) := by
  cases redis with
  | none => trivial
  | some redis => exact Program.Performs.perform_iff.mpr (grants redis)

theorem btUpdatePeerList_grants (redis : Option Context) (announceRequest : BtAnnounceReq)
    (clientAddr : SockaddrPtr) (infoHash : Octets 20) (isSeeder : Bool) :
    Program.Performs (Op.Grants host config) (fun _ => True)
      (btUpdatePeerList host redis config announceRequest clientAddr (infoHashText infoHash)
        isSeeder) := by
  have inserts : Program.Performs (Op.Grants host config) (fun _ => True) (do
      let sockaddr ← perform (Op.loadSockaddr clientAddr)
      let peer ← btNewPeer announceRequest (ntohl host sockaddr.sAddr)
      btInsertPeer host redis config (infoHashText infoHash) announceRequest.peerId peer
        isSeeder) := by
    apply Program.Performs.bind (Program.Performs.perform_iff.mpr trivial)
    intro address
    apply Program.Performs.bind
      (Program.Performs.bind (Program.Performs.perform_iff.mpr trivial) fun _ => .done _)
    intro peer
    apply Program.Performs.bind (redisCommand_grants redis _) fun _ => .done _
    intro context connectionId equal
    exact absurd equal (KeyName.encode_peer_ne_connectionKey host config infoHash isSeeder _ _)
  rw [btUpdatePeerList]
  split
  · exact .bind (redisCommand_grants redis fun _ => trivial) fun _ => .done _
  · refine Program.Performs.bind (redisCommand_grants redis fun _ => trivial) ?_
    intro reply
    cases reply with
    | none => exact .done _
    | some reply =>
        dsimp only
        split
        · exact .done _
        · exact .bind (redisCommand_grants redis fun _ => trivial) fun _ => .done _
  · exact inserts
  · exact inserts
  · exact .done _

/-- Jobs grant connection identifiers for two minutes and in no other way. -/
theorem btRequestProcessor_grants (params : BtJobParams) :
    Program.Performs (Op.Grants host config) (fun _ => True)
      (btRequestProcessor host config params) := by
  have responds (response : Option Block) :
      Program.Performs (Op.Grants host config) (fun _ => True) (respond params response) := by
    cases response with
    | none => exact .done _
    | some data => exact Program.Performs.perform_iff.mpr trivial
  rw [btRequestProcessor_eq]
  apply Program.Performs.bind (acquireRedis_observes config).grants
  intro redis
  cases redis with
  | none =>
      rw [Ledger.answerWith_none]
      exact responds _
  | some redis =>
      apply Program.Performs.bind _ responds
      rw [dispatch]
      split
      · apply Program.Performs.bind (btValidRequest_observes ..).grants
        intro valid
        cases valid with
        | false => exact .done _
        | true =>
            apply Program.Performs.bind (btRandomInt64_observes host).grants
            intro connectionId
            have grants (context : Context) :
                (Op.redisCommand context (grantCommand host config connectionId)).Grants host
                  config := by
              intro other equal
              rw [KeyName.connection.inj (KeyName.encode_injective host config
                (equal : (KeyName.connection connectionId).encode host config =
                  (KeyName.connection other).encode host config))]
              rfl
            apply Program.Performs.bind
              (Program.Performs.bind (redisCommand_grants _ grants) fun _ => .done _)
            intro _
            rw [btSerializeConnectionResponse_eq]
            exact .done _
      · apply Program.Performs.bind (btValidRequest_observes ..).grants
        intro valid
        cases valid with
        | false => exact .done _
        | true =>
            apply Program.Performs.bind (btInfoHashBlacklisted_observes ..).grants
            intro refused
            cases refused with
            | true =>
                rw [btSendError_eq]
                exact .done _
            | false =>
                apply Program.Performs.bind (btUpdatePeerList_grants ..)
                intro _
                exact .bind (answerAnnounce_observes ..).grants fun _ => .done _
      · exact (btHandleScrape_observes ..).grants
      · trivial
      · exact .done _

end BtTracker
