import Mathlib.Data.List.Sort
import BtTracker.Foundation.Unwinding
import BtTracker.Correctness.Focus
import BtTracker.Properties.Leftovers
import BtTracker.Properties.Restriction
import BtTracker.Properties.Statistics

/-!
# Torrents do not interfere

All torrents share one database, one key prefix and the patterns of `KEYS`.  Still,
requests for other torrents may be left out of any run, and no response to the
remaining ones changes.
-/

namespace BtTracker

open BtTracker.Foundation

/-! ## What belongs to a torrent -/

/-- The torrent a key is about. -/
def KeyName.torrent? : KeyName → Option (Octets 20)
  | .peer infoHash _ _ | .torrent infoHash => some infoHash
  | .connection _ | .whitelist | .blacklist => none

/-- Keys of a set of torrents, and those of no torrent. -/
def KeyName.Visible (mine : Set (Octets 20)) (name : KeyName) : Prop :=
  ∀ infoHash, name.torrent? = some infoHash → infoHash ∈ mine

theorem KeyName.visible_of_none {mine : Set (Octets 20)} {name : KeyName}
    (general : name.torrent? = none) : name.Visible mine := by
  intro infoHash about
  rw [general] at about
  cases about

/-- The datagram asks for torrents of a set only. -/
def Datagram.Within (host : Host) (mine : Set (Octets 20)) (datagram : Datagram) : Prop :=
  ∀ infoHash, infoHashText infoHash ∈ datagram.requested host → infoHash ∈ mine

variable (host : Host) (config : BtConfig) (mine : Set (Octets 20))

/-- Databases of the tracker that do not differ for a set of torrents. -/
structure Redis.Store.SameFor (left right : Redis.Store) : Prop where
  now : left.now = right.now
  find? : ∀ name : KeyName, name.Visible mine →
    left.find? (name.encode host config) = right.find? (name.encode host config)
  namedLeft : Named host config left
  namedRight : Named host config right

/-- A command that reads and writes visible keys only. -/
structure Redis.Command.Within (request : Redis.Command) : Prop where
  writes : ∀ key ∈ request.writes, ∃ name : KeyName, name.Visible mine ∧
    key = name.encode host config
  subject : ∀ key, request.subject = some key → ∃ name : KeyName, name.Visible mine ∧
    key = name.encode host config
  lists : ∀ pattern, request = .keys pattern → ∃ infoHash ∈ mine, ∃ isSeeder,
    pattern = swarmPattern config (infoHashText infoHash) isSeeder

variable {host config mine}

/-! ## Commands -/

/-- Keys are listed in the order of the keyspace, so it is enough which of them exist. -/
theorem Redis.Store.filter_keys_congr {left right : Redis.Store} {accepts : Bytes → Bool}
    (same : ∀ key, accepts key = true →
      ((∃ entry, left.find? key = some entry) ↔ ∃ entry, right.find? key = some entry)) :
    left.keys.filter accepts = right.keys.filter accepts := by
  have oriented : ∀ first second : Bytes, first ∈ left.keys.filter accepts →
      second ∈ right.keys.filter accepts → compare first second = .lt →
        compare second first = .lt → first = second := by
    intro first second _ _ less greater
    exact absurd greater (Std.OrientedCmp.not_lt_of_lt less)
  apply List.Perm.eq_of_pairwise oriented
  · exact Std.ExtTreeMap.ordered_keys.filter _
  · exact Std.ExtTreeMap.ordered_keys.filter _
  · apply (List.perm_ext_iff_of_nodup (left.nodup_keys.filter _) (right.nodup_keys.filter _)).mpr
    intro key
    simp only [List.mem_filter, mem_keys]
    constructor
    · intro member
      exact ⟨(same key member.2).mp member.1, member.2⟩
    · intro member
      exact ⟨(same key member.2).mpr member.1, member.2⟩

namespace Redis.Store.SameFor

variable {left right : Redis.Store} {request : Redis.Command}

/-- The swarms of the torrents are listed alike. -/
theorem filter_keys (same : left.SameFor host config mine right) (plain : config.Plain)
    {infoHash : Octets 20} (wanted : infoHash ∈ mine) (isSeeder : Bool) :
    left.keys.filter (Glob.isMatch (swarmPattern config (infoHashText infoHash) isSeeder)) =
      right.keys.filter
        (Glob.isMatch (swarmPattern config (infoHashText infoHash) isSeeder)) := by
  have alike {name : KeyName} (accepted : Glob.isMatch (swarmPattern config
      (infoHashText infoHash) isSeeder) (name.encode host config) = true) :
      left.find? (name.encode host config) = right.find? (name.encode host config) := by
    obtain ⟨peerId, rfl⟩ := (plain.isMatch_encode host).mp accepted
    apply same.find?
    intro other about
    cases about
    exact wanted
  apply filter_keys_congr
  intro key accepted
  constructor
  · intro found
    obtain ⟨entry, found⟩ := found
    obtain ⟨name, rfl⟩ := same.namedLeft found
    rw [alike accepted] at found
    exact ⟨entry, found⟩
  · intro found
    obtain ⟨entry, found⟩ := found
    obtain ⟨name, rfl⟩ := same.namedRight found
    rw [← alike accepted] at found
    exact ⟨entry, found⟩

/-- Visible keys are answered alike. -/
theorem exec_reply (same : left.SameFor host config mine right) (plain : config.Plain)
    (within : request.Within host config mine) (listing : Redis.Listing) :
    (left.exec listing request).1 = (right.exec listing request).1 := by
  have known {key : Bytes} (visible : ∃ name : KeyName, name.Visible mine ∧
      key = name.encode host config) : left.find? key = right.find? key := by
    obtain ⟨name, visible, rfl⟩ := visible
    exact same.find? name visible
  have agree : AgreeOn request.writes left right :=
    ⟨same.now, fun key written => known (within.writes key written)⟩
  cases request with
  | ping | select _ => rfl
  | get key | hget key _ | sismember key _ =>
      exact reply_of_subject rfl (known (within.subject key rfl)) listing
  | keys pattern =>
      obtain ⟨infoHash, wanted, isSeeder, rfl⟩ := within.lists pattern rfl
      simp only [Redis.Store.exec, same.filter_keys plain wanted isSeeder]
  | setex _ _ _ | del _ | rename _ _ | hincrby _ _ _ => exact reply_congr id agree listing

theorem after (same : left.SameFor host config mine right)
    (within : request.Within host config mine) :
    (left.after request).SameFor host config mine (right.after request) := by
  have agree : AgreeOn request.writes left right := by
    refine ⟨same.now, fun key written => ?_⟩
    obtain ⟨name, visible, rfl⟩ := within.writes key written
    exact same.find? name visible
  have named {store : Redis.Store} (named : Named host config store) :
      Named host config (store.after request) := by
    intro key entry found
    by_cases written : key ∈ request.writes
    · obtain ⟨name, -, equal⟩ := within.writes key written
      exact ⟨name, equal⟩
    · rw [store.find?_after_of_not_mem_writes written] at found
      exact named found
  refine ⟨?_, fun name visible => ?_, named same.namedLeft, named same.namedRight⟩
  · rw [now_after, now_after, same.now]
  · by_cases written : name.encode host config ∈ request.writes
    · exact find?_after_congr agree written
    · rw [left.find?_after_of_not_mem_writes written, right.find?_after_of_not_mem_writes written]
      exact same.find? name visible

/-- Whatever becomes of a command, it becomes of it in both databases. -/
theorem deliver (same : left.SameFor host config mine right) (plain : config.Plain)
    (within : request.Within host config mine) (delivery : Redis.Delivery)
    (listing : Redis.Listing) :
    (left.deliver delivery listing request).1 = (right.deliver delivery listing request).1 ∧
      (left.deliver delivery listing request).2.SameFor host config mine
        (right.deliver delivery listing request).2 := by
  have reply := same.exec_reply plain within listing
  have stores := same.after within
  cases delivery with
  | normal =>
      simp only [Redis.Store.deliver, exec_store]
      exact ⟨congrArg some reply, stores⟩
  | unsent => exact ⟨rfl, same⟩
  | refused text => exact ⟨rfl, same⟩
  | unanswered =>
      simp only [Redis.Store.deliver, exec_store]
      exact ⟨trivial, stores⟩

/-- Hidden keys do not matter. -/
theorem after_hidden (same : left.SameFor host config mine right)
    (named : Named host config (left.after request))
    (hidden : ∀ name : KeyName, name.encode host config ∈ request.writes →
      ¬name.Visible mine) :
    (left.after request).SameFor host config mine right := by
  refine ⟨?_, fun name visible => ?_, named, same.namedRight⟩
  · rw [now_after, same.now]
  · rw [left.find?_after_of_not_mem_writes fun written => hidden name written visible]
    exact same.find? name visible

theorem advance (same : left.SameFor host config mine right) (seconds : Nat) :
    (left.advance seconds).SameFor host config mine (right.advance seconds) where
  now := by rw [now_advance, now_advance, same.now]
  find? := fun name visible => by
    rw [find?_advance, find?_advance, same.now, same.find? name visible]
  namedLeft := fun _ _ found => same.namedLeft (find?_of_find?_advance found).1
  namedRight := fun _ _ found => same.namedRight (find?_of_find?_advance found).1

theorem edit (same : left.SameFor host config mine right) (whitelist : Bool) (entry : Entry) :
    (left.put (Pool.listKey config whitelist) entry).SameFor host config mine
      (right.put (Pool.listKey config whitelist) entry) := by
  have named {store : Redis.Store} (named : Named host config store) :
      Named host config (store.put (Pool.listKey config whitelist) entry) := by
    intro key other found
    by_cases edited : Pool.listKey config whitelist = key
    · cases whitelist with
      | true => exact ⟨.whitelist, edited.symm⟩
      | false => exact ⟨.blacklist, edited.symm⟩
    · rw [find?_put_of_ne _ _ edited] at found
      exact named found
  refine ⟨same.now, fun name visible => ?_, named same.namedLeft, named same.namedRight⟩
  rw [find?_put, find?_put, same.find? name visible]

end Redis.Store.SameFor

/-! ## Jobs -/

section Jobs

variable {datagram : Datagram} {conduct : Conduct} {redis : Context} {request : Redis.Command}
  {name : KeyName}

/-- Connections are stored for those who connect, everything else for the torrent
that is announced. -/
theorem Conduct.permits.torrent?
    (permitted : conduct.permits host config datagram (.redisCommand redis request))
    (member : name.encode host config ∈ request.writes) :
    (datagram.action host = some .connect ∧ name.torrent? = none) ∨
      (datagram.action host = some .announce ∧
        name.torrent? = some (datagram.announce host).infoHash) := by
  have written : Writes host config datagram request name := permitted.writes member
  cases owes : conduct.owes with
  | true =>
      simp only [permits, owes, if_true] at permitted
      obtain ⟨announces, rfl⟩ := permitted
      have counter : name = .torrent (datagram.announce host).infoHash :=
        KeyName.encode_injective host config (List.mem_singleton.mp member)
      subst counter
      exact .inr ⟨announces, rfl⟩
  | false =>
      simp only [permits, owes, Bool.false_eq_true, if_false] at permitted
      cases written with
      | connection connectionId seconds value =>
          rcases permitted with ⟨connects, -⟩ | ⟨-, -, other, -⟩
          · exact .inl ⟨connects, rfl⟩
          · cases KeyName.encode_injective host config other
      | inserts registers seconds value =>
          rcases permitted with ⟨-, connectionId, other⟩ | ⟨announces, -⟩
          · exact (KeyName.encode_peer_ne_connectionKey host config _ _ _ _ other).elim
          · exact .inr ⟨announces, rfl⟩
      | removes => exact .inr ⟨permitted.1, rfl⟩
      | promotes isSeeder => exact .inr ⟨permitted.1, rfl⟩
      | counts => exact permitted.elim

/-- What is written for a datagram that asks for visible torrents is visible. -/
theorem Datagram.Within.visible (within : datagram.Within host mine)
    (permitted : conduct.permits host config datagram (.redisCommand redis request))
    (member : name.encode host config ∈ request.writes) : name.Visible mine := by
  rcases permitted.torrent? member with ⟨-, general⟩ | ⟨announces, announced⟩
  · exact KeyName.visible_of_none general
  · intro infoHash about
    rw [announced] at about
    cases about
    apply within
    rw [Datagram.requested, announces]
    exact List.mem_singleton_self _

/-- What is written for any other datagram is hidden. -/
theorem Datagram.hidden_of_not_within (foreign : ¬datagram.Within host mine)
    (permitted : conduct.permits host config datagram (.redisCommand redis request))
    (member : name.encode host config ∈ request.writes) : ¬name.Visible mine := by
  intro visible
  apply foreign
  intro infoHash requested
  rcases permitted.torrent? member with ⟨connects, -⟩ | ⟨announces, announced⟩
  · rw [Datagram.requested, connects] at requested
    cases requested
  · rw [Datagram.requested, announces, List.mem_singleton] at requested
    rw [infoHashText_injective requested]
    exact visible _ announced

/-- Two worlds in front of databases that do not differ for the torrents, and a job
that knows visible keys only. -/
def Conduct.Focused (host : Host) (config : BtConfig) (mine : Set (Octets 20))
    (conduct : Conduct) (left right : World) : Prop :=
  ∃ store, right = { left with store := store } ∧
    left.store.SameFor host config mine store ∧
    ∀ key ∈ conduct.listed, ∃ name : KeyName, name.Visible mine ∧ key = name.encode host config

/-- A job for visible torrents stays with visible keys. -/
theorem Datagram.Within.command (within : datagram.Within host mine)
    (permitted : conduct.permits host config datagram (.redisCommand redis request))
    (asks : request.AsksFor config mine)
    (listed : ∀ key ∈ conduct.listed, ∃ name : KeyName, name.Visible mine ∧
      key = name.encode host config) :
    request.Within host config mine := by
  refine ⟨fun key written => ?_, fun key subject => ?_, ?_⟩
  · obtain ⟨name, rfl, -⟩ := permitted.exists_writes written
    exact ⟨name, within.visible permitted written, rfl⟩
  · cases request with
    | get key =>
        cases subject
        cases owes : conduct.owes with
        | true =>
            simp only [Conduct.permits, owes, if_true] at permitted
            cases permitted.2
        | false =>
            simp only [Conduct.permits, owes, Bool.false_eq_true, if_false] at permitted
            rcases permitted with rfl | member
            · exact ⟨.connection _, KeyName.visible_of_none rfl, rfl⟩
            · exact listed key member
    | hget key field =>
        cases subject
        obtain ⟨infoHash, wanted, rfl⟩ := asks
        refine ⟨.torrent infoHash, fun other about => ?_, rfl⟩
        cases about
        exact wanted
    | sismember key member =>
        cases subject
        rcases asks with rfl | rfl
        · exact ⟨.whitelist, KeyName.visible_of_none rfl, rfl⟩
        · exact ⟨.blacklist, KeyName.visible_of_none rfl, rfl⟩
    | _ => cases subject
  · intro pattern equal
    subst equal
    exact asks

/-- Only visible keys are listed. -/
theorem visible_of_listed {store : Redis.Store} (named : Named host config store)
    (plain : config.Plain) {delivery : Redis.Delivery} {listing : Redis.Listing}
    {infoHash : Octets 20} (wanted : infoHash ∈ mine) {isSeeder : Bool} {elements : List Bytes}
    (replied : (store.deliver delivery listing
      (.keys (swarmPattern config (infoHashText infoHash) isSeeder))).1 = some (.array elements))
    {key : Bytes} (member : key ∈ elements) :
    ∃ name : KeyName, name.Visible mine ∧ key = name.encode host config := by
  obtain ⟨peerId, rfl⟩ := named.peer_of_listed plain replied member
  refine ⟨_, fun other about => ?_, rfl⟩
  cases about
  exact wanted

/-- One operation of a job for visible torrents is answered alike in both worlds. -/
theorem Conduct.Focused.exec {left right : World} {op : Op}
    (focused : conduct.Focused host config mine left right) (plain : config.Plain)
    (within : datagram.Within host mine) (permitted : conduct.permits host config datagram op)
    (asks : op.AsksFor config mine) :
    (World.exec op left).1 = (World.exec op right).1 ∧
      (conduct.next op (World.exec op left).1).Focused host config mine
        (World.exec op left).2 (World.exec op right).2 := by
  obtain ⟨store, rfl, same, listed⟩ := focused
  cases op with
  | redisCommand redis request =>
      have command := within.command permitted asks listed
      obtain ⟨reply, stores⟩ := same.deliver plain command (left.choices 0).delivery
        (left.choices 0).listing
      refine ⟨reply, (store.deliver (left.choices 0).delivery (left.choices 0).listing request).2,
        ?_, stores, ?_⟩
      · simp only [World.exec, World.command, World.tick, reply]
      · cases request with
        | keys pattern =>
            obtain ⟨infoHash, wanted, isSeeder, rfl⟩ := asks
            intro key member
            simp only [Conduct.next, nextListing] at member
            split at member
            · rename_i replied
              exact visible_of_listed same.namedLeft plain wanted replied member
            · exact listed key member
        | _ => exact listed
  | loadSockaddr address =>
      cases address
      exact ⟨rfl, store, rfl, same, listed⟩
  | sendto address data =>
      cases address
      exact ⟨rfl, store, rfl, same, listed⟩
  | _ => exact ⟨rfl, store, rfl, same, listed⟩

end Jobs

/-- A job asks about the torrents its datagram names. -/
theorem btRequestProcessor_asks {datagram : Datagram} (within : datagram.Within host mine) :
    Worker.AsksFor config mine (btRequestProcessor host config datagram.params) := by
  refine .bind acquireRedis_asks fun redis => ?_
  have responds (response : Option Block) :
      Worker.AsksFor config mine (respond datagram.params response) := by
    cases response with
    | none => exact .done _
    | some data => exact Program.Performs.perform_iff.mpr trivial
  cases redis with
  | none =>
      have unavailable : Worker.AsksFor config mine (some <$> btSendError host
          { datagram.request host with action := BtAction.error.toWord }
          (some storageUnavailable)) :=
        .bind (btSendError_asks host _ _) fun _ => .done _
      exact .bind unavailable fun response => responds response
  | some redis =>
      have handled : Worker.AsksFor config mine
          (dispatch host config datagram.params (datagram.request host) none (some redis)) := by
        rw [dispatch, ← Datagram.action]
        cases action : datagram.action host with
        | none => exact .done _
        | some kind =>
            cases kind with
            | connect => exact btHandleConnection_asks host redis _ _
            | announce =>
                apply btHandleAnnounce_asks
                apply within
                rw [Datagram.requested, action]
                exact List.mem_singleton_self _
            | scrape =>
                apply btHandleScrape_asks
                intro scrapeRequest read infoHash member
                apply within
                rw [Datagram.requested, action]
                dsimp only
                rw [read]
                exact member
            | error => exact .bind (btSendError_asks host _ _) fun _ => .done _
      exact .bind handled fun response => responds response

/-- A job for visible torrents ends in both worlds in the same way. -/
theorem Redis.Store.SameFor.run {datagram : Datagram} (within : datagram.Within host mine)
    (plain : config.Plain) {world : World} {store : Redis.Store}
    (same : world.store.SameFor host config mine store) :
    (world.run (btRequestProcessor host config datagram.params)).1 =
        (World.run (btRequestProcessor host config datagram.params)
          { world with store := store }).1 ∧
      ∃ conduct : Conduct, conduct.Focused host config mine
        (world.run (btRequestProcessor host config datagram.params)).2
        (World.run (btRequestProcessor host config datagram.params)
          { world with store := store }).2 := by
  have behaves : Behaves host config datagram .initial
    (btRequestProcessor host config datagram.params) := btRequestProcessor_behaves
  have asks : Worker.AsksFor config mine (btRequestProcessor host config datagram.params) :=
    btRequestProcessor_asks within
  apply Program.Follows.run_related World.exec (Conduct.Focused host config mine) ?_
    (behaves.performing asks)
  · exact ⟨store, rfl, same, fun key member => absurd member List.not_mem_nil⟩
  · intro conduct op left right allowed focused
    exact focused.exec plain within allowed.1 allowed.2

/-- Any other job leaves the database as it was for the torrents. -/
theorem Redis.Store.SameFor.run_hidden {datagram : Datagram}
    (foreign : ¬datagram.Within host mine) {world : World} {store : Redis.Store}
    (same : world.store.SameFor host config mine store) :
    (world.run (btRequestProcessor host config datagram.params)).2.store.SameFor host config mine
      store := by
  have behaves : Behaves host config datagram .initial
    (btRequestProcessor host config datagram.params) := btRequestProcessor_behaves
  have step (conduct : Conduct) (op : Op) (world : World)
      (permitted : conduct.permits host config datagram op)
      (same : world.store.SameFor host config mine store) :
      (World.exec op world).2.store.SameFor host config mine store := by
    cases op with
    | redisCommand redis request =>
        rcases world.command_store request with kept | executed
        · rw [World.exec, kept]
          exact same
        · rw [World.exec, executed]
          apply same.after_hidden (same.namedLeft.permitted permitted)
          intro name member
          exact datagram.hidden_of_not_within foreign permitted member
    | _ => exact same
  obtain ⟨_, last, _⟩ := Program.Follows.run_invariant World.exec
    (fun _ world => world.store.SameFor host config mine store) step behaves same
  exact last

/-! ## Runs -/

/-- What `main` keeps between two datagrams, in front of the database: the socket address
cell, and the buffer with what is left in it. -/
structure ReceiveLoop where
  store : Redis.Store
  siOther : SockaddrIn
  buff : RecvBuffer

/-- What reaches a tracker: a datagram, taken by a thread with or without a context and
handled before the next one is received, the passing of time, edits of the lists of info
hashes, and another start after a crash, with any buffer. -/
inductive Input where
  | datagram (slot : Option Context) (nextContext : Context) (sender : SockaddrIn) (data : Bytes)
      (choices : Nat → Choice)
  | wait (seconds : Nat)
  | edit (whitelist : Bool) (members : Std.ExtTreeSet Bytes)
  | restart (siOther : SockaddrIn) (buff : RecvBuffer)

/-- How a job ended, and what it has sent. -/
abbrev Output := Except Fault Unit × List (SockaddrIn × Block)

namespace ReceiveLoop

/-- The world of a thread that is about to take a datagram. -/
def world (main : ReceiveLoop) (slot : Option Context) (nextContext : Context) : World :=
  { World.start with
    store := main.store, siOther := main.siOther, slot := slot, nextContext := nextContext }

/-- The job for a datagram that is received into the buffer as it is. -/
def arrival (main : ReceiveLoop) (sender : SockaddrIn) (data : Bytes) (choices : Nat → Choice) :
    Arrival :=
  ⟨⟨.received main.buff data, sender⟩, choices⟩

/-- What comes of an input, and what is left afterwards. -/
def handle (host : Host) (config : BtConfig) (main : ReceiveLoop) :
    Input → Option Output × ReceiveLoop
  | .datagram slot nextContext sender data choices =>
      let (outcome, after) := (main.world slot nextContext).serve host config
        (main.arrival sender data choices)
      (some (outcome, after.sent), ⟨after.store, after.siOther, main.buff.recvfrom data⟩)
  | .wait seconds => (none, { main with store := main.store.advance seconds })
  | .edit whitelist members =>
      (none, { main with
        store := main.store.put (Pool.listKey config whitelist) ⟨.set members, none⟩ })
  | .restart siOther buff => (none, { main with siOther := siOther, buff := buff })

end ReceiveLoop

/-- Inputs that may concern the torrents of a set, or concern all of them: for a datagram
that is too short to name its torrents, it depends on the buffer what it asks for. -/
def Input.Concerns (host : Host) (mine : Set (Octets 20)) : Input → Prop
  | .datagram _ _ sender data _ =>
      ∃ buff, Datagram.Within host mine ⟨.received buff data, sender⟩
  | .wait _ | .edit _ _ | .restart _ _ => True

/-- Datagrams that are not read past their end: they have a header, and announces are
complete or too short to be decoded. -/
def Input.Whole (host : Host) : Input → Prop
  | .datagram _ _ sender data _ =>
      16 ≤ data.length ∧ ∀ buff, Datagram.action host ⟨.received buff data, sender⟩ =
        some .announce → data.length < 20 ∨ 98 ≤ data.length
  | .wait _ | .edit _ _ | .restart _ _ => True

/-- It does not matter what was left in the buffer when a whole datagram is received. -/
theorem Input.Whole.processor_eq {slot : Option Context} {nextContext : Context}
    {sender : SockaddrIn} {data : Bytes} {choices : Nat → Choice}
    (whole : (Input.datagram slot nextContext sender data choices).Whole host)
    (first second : RecvBuffer) :
    btRequestProcessor host config (.received first data) =
      btRequestProcessor host config (.received second data) := by
  obtain ⟨long, announces⟩ := whole
  have limit : btRecvBuflen = 1496 := rfl
  have length : (BtJobParams.received first data).buflen = min data.length btRecvBuflen := rfl
  have same : (BtJobParams.received first data).buflen =
    (BtJobParams.received second data).buflen := rfl
  refine btRequestProcessor_congr same ?_ ?_ ?_
  · rw [length]
    exact (RecvBuffer.agreeBelow_received first second data).mono (Nat.min_le_left ..)
  · rw [length]
    omega
  · intro announce
    rw [length]
    have decoded := announces first announce
    omega

/-- A datagram for visible torrents is handled alike in front of both databases. -/
theorem Redis.Store.SameFor.serve {left right : ReceiveLoop} {sender : SockaddrIn} {data : Bytes}
    {choices : Nat → Choice} {slot : Option Context} {nextContext : Context}
    (same : left.store.SameFor host config mine right.store) (plain : config.Plain)
    (whole : (Input.datagram slot nextContext sender data choices).Whole host)
    (concerns : (Input.datagram slot nextContext sender data choices).Concerns host mine) :
    (left.handle host config (.datagram slot nextContext sender data choices)).1 =
        (right.handle host config (.datagram slot nextContext sender data choices)).1 ∧
      (left.handle host config (.datagram slot nextContext sender data choices)).2.store.SameFor
        host config mine
        (right.handle host config (.datagram slot nextContext sender data choices)).2.store := by
  obtain ⟨buff, within⟩ := concerns
  let ready : World := (left.world slot nextContext).receive (left.arrival sender data choices)
  have start : ready.store.SameFor host config mine right.store := same
  obtain ⟨outcome, conduct, store, after, stores, -⟩ := start.run within plain
  have first : (left.world slot nextContext).serve host config (left.arrival sender data choices) =
      ready.run (btRequestProcessor host config (.received buff data)) :=
    congrArg (World.run · ready) (whole.processor_eq left.buff buff)
  have second : (right.world slot nextContext).serve host config
        (right.arrival sender data choices) =
      World.run (btRequestProcessor host config (.received buff data))
        { ready with store := right.store } :=
    congrArg (World.run · { ready with store := right.store })
      (whole.processor_eq right.buff buff)
  simp only [ReceiveLoop.handle, first, second]
  rw [after]
  exact ⟨by rw [outcome], stores⟩

/-- What an input has to do with the torrents of a set. -/
theorem unwinds_handle (plain : config.Plain) (mine : Set (Octets 20)) :
    Unwinds (ReceiveLoop.handle host config) (Input.Whole host) (Input.Concerns host mine)
      fun left right => left.store.SameFor host config mine right.store := by
  constructor
  · intro left right input same whole concerns
    cases input with
    | datagram slot nextContext sender data choices =>
        exact (same.serve plain whole concerns).1
    | wait seconds | edit whitelist members | restart siOther buff => rfl
  · intro left right input same whole concerns
    cases input with
    | datagram slot nextContext sender data choices =>
        exact (same.serve plain whole concerns).2
    | wait seconds => exact same.advance seconds
    | edit whitelist members => exact same.edit whitelist _
    | restart siOther buff => exact same
  · intro left right input same foreign
    cases input with
    | datagram slot nextContext sender data choices =>
        have start : ((left.world slot nextContext).receive
          (left.arrival sender data choices)).store.SameFor host config mine right.store := same
        exact start.run_hidden fun within => foreign ⟨left.buff, within⟩
    | wait seconds | edit whitelist members | restart siOther buff => exact absurd trivial foreign

/-- The receive loop before the first datagram. -/
def ReceiveLoop.start : ReceiveLoop := ⟨.empty, ⟨0, 0⟩, fun _ => 0⟩

/-- An announce for another torrent than that of the sample. -/
def otherTorrent : Bytes := { BtAnnounceReq.sample 0 2 with infoHash := fun _ => 9 }.datagram

/-- That announce, from another host. -/
def foreignInput : Input := .datagram none 0 ⟨6882, 0x0200000a⟩ otherTorrent fun _ => .calm

/-- The announce of a leecher that the same thread takes next. -/
def sampleInput : Input :=
  .datagram none 0 ⟨6881, 0x0100000a⟩ (BtAnnounceReq.sample 5 2).datagram fun _ => .calm

/-- An announce is complete, whatever was left in the buffer. -/
private theorem asks_for_otherTorrent (buff : RecvBuffer) :
    infoHashText (fun _ => 9) ∈
      Datagram.requested .little ⟨.received buff otherTorrent, ⟨6882, 0x0200000a⟩⟩ := by
  have long : otherTorrent.length = 98 := by decide +kernel
  have agree := RecvBuffer.agreeBelow_received buff (fun _ => 0) otherTorrent
  rw [long] at agree
  have action : Datagram.action .little ⟨.received buff otherTorrent, ⟨6882, 0x0200000a⟩⟩ =
      some .announce := by
    have known : (btReadRequestData .little
      (BtJobParams.received (fun _ => 0) otherTorrent).buff).action = 1 := by decide +kernel
    have decoded : btReadRequestData .little (BtJobParams.received buff otherTorrent).buff =
        btReadRequestData .little (BtJobParams.received (fun _ => 0) otherTorrent).buff :=
      btReadRequestData_congr agree (by omega)
    rw [Datagram.action, Datagram.request, decoded, known]
    rfl
  have announce : Datagram.announce .little ⟨.received buff otherTorrent, ⟨6882, 0x0200000a⟩⟩ =
      Datagram.announce .little ⟨.received (fun _ => 0) otherTorrent, ⟨6882, 0x0200000a⟩⟩ :=
    btReadAnnounceRequestData_congr agree (Nat.le_refl _)
  have named : (Datagram.announce .little
      ⟨.received (fun _ => 0) otherTorrent, ⟨6882, 0x0200000a⟩⟩).infoHash = fun _ => 9 := by
    decide +kernel
  rw [Datagram.requested, action, announce, named]
  exact List.mem_singleton_self _

end BtTracker
