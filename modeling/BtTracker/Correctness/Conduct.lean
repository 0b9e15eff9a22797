import BtTracker.Correctness.Observers
import BtTracker.Correctness.Request

/-!
# What a job does, step by step

While a job runs, other threads change the database between any two of its
operations.  What remains true of it is the order of its operations and where
their arguments come from: records are stored under the job's own keys, the
address in a record is the one the job has read, the counter of downloads is
incremented right after a promotion was confirmed and at no other time, and a
peer record is read only if its key was just listed.
-/

namespace BtTracker

open BtTracker.Foundation

/-- What a job remembers: the socket address it has read, the last keys it has
listed, and whether it owes an increment for a promotion. -/
structure Conduct where
  sender : Option SockaddrIn
  listed : List Bytes
  owes : Bool

namespace Conduct

/-- A job before its first operation. -/
def initial : Conduct := ⟨none, [], false⟩

/-- Whether a reply confirms a promotion. -/
def confirms (reply : Option Redis.Reply) : Bool := reply.any fun reply => !reply.isError

/-- What an answer adds to the memory of a job. -/
def next (conduct : Conduct) : (op : Op) → op.Answer → Conduct
  | .loadSockaddr _, address => { conduct with sender := some address }
  | .redisCommand _ (.rename _ _), reply => { conduct with owes := confirms reply }
  | .redisCommand _ (.hincrby _ _ _), _ => { conduct with owes := false }
  | op, answer => { conduct with listed := nextListing conduct.listed op answer }

variable (host : Host) (config : BtConfig) (datagram : Datagram)

/-- The commands a job may send while it owes nothing. -/
def sends (conduct : Conduct) : Redis.Command → Prop
  | .setex key seconds value =>
      (datagram.action host = some .connect ∧ (∃ connectionId,
        key = BtTracker.connectionKey host config connectionId)) ∨
      (datagram.action host = some .announce ∧ datagram.Registers host ∧
        key = datagram.recordKey host config (datagram.isSeeder host) ∧
        seconds = config.peerTtl ∧ ∃ address padding, conduct.sender = some address ∧
          value = (datagram.recordFrom host address padding).image host)
  | .get key => key = datagram.connectionKey host config ∨ key ∈ conduct.listed
  | .del key => datagram.action host = some .announce ∧
      datagram.event host = some .stopped ∧
      key = datagram.recordKey host config (datagram.isSeeder host)
  | .rename source target => datagram.action host = some .announce ∧
      datagram.event host = some .completed ∧
      source = datagram.recordKey host config false ∧
      target = datagram.recordKey host config true
  | .hincrby _ _ _ => False
  | _ => True

/-- The operations a job may perform. -/
def permits (conduct : Conduct) : Op → Prop
  | .redisCommand _ request =>
      if conduct.owes then
        datagram.action host = some .announce ∧ request = datagram.countCommand host config
      else conduct.sends host config datagram request
  | .sendto address _ => conduct.owes = false ∧ address = datagram.params.fromAddr
  | .loadSockaddr address => conduct.owes = false ∧ address = datagram.params.fromAddr ∧
      datagram.action host = some .announce
  | _ => conduct.owes = false

/-- The protocol of a job.  A job that owes an increment does not fail before it
has sent it. -/
def protocol : Program.Protocol Op Op.Answer Fault Conduct where
  allows conduct op := conduct.permits host config datagram op
  next := next
  tolerates conduct _ := conduct.owes = false

end Conduct

variable (host : Host) (config : BtConfig) (datagram : Datagram)

/-- A program that behaves like a part of the job and leaves no debts. -/
abbrev Behaves {α : Type} (conduct : Conduct) (program : Worker α) : Prop :=
  Program.Follows (Conduct.protocol host config datagram) (fun _ last => last.owes = false)
    conduct program

variable {host config datagram}

/-- Looking around is good conduct. -/
theorem Worker.Browses.behaves {α : Type} {program : Worker α}
    (browses : Browses (· = datagram.connectionKey host config) program) {conduct : Conduct}
    (settled : conduct.owes = false) : Behaves host config datagram conduct program := by
  refine (Program.Follows.simulate (fun listed conduct => conduct.listed = listed ∧
    conduct.owes = false) ?_ ?_ (browses.follows conduct.listed) ⟨rfl, settled⟩).mono ?_
  · rintro listed other op ⟨rfl, settled⟩ allowed
    cases op with
    | redisCommand redis request =>
        cases request with
        | setex _ _ _ | del _ | rename _ _ | hincrby _ _ _ => exact allowed.elim
        | get key =>
            refine ⟨?_, fun answer => ⟨rfl, settled⟩⟩
            simp only [Conduct.protocol, Conduct.permits, settled, Bool.false_eq_true, if_false]
            exact allowed
        | _ =>
            refine ⟨?_, fun answer => ⟨rfl, settled⟩⟩
            simp [Conduct.protocol, Conduct.permits, settled, Conduct.sends]
    | sendto address data | loadSockaddr address => exact allowed.elim
    | _ => exact ⟨settled, fun answer => ⟨rfl, settled⟩⟩
  · exact fun _ _ _ related _ => related.2
  · rintro result last ⟨listed, ⟨_, settled⟩, _⟩
    exact settled

namespace Behaves

variable {α β : Type} {conduct : Conduct}

theorem bind {program : Worker α} {rest : α → Worker β}
    (first : Behaves host config datagram conduct program)
    (second : ∀ result conduct, conduct.owes = false →
      Behaves host config datagram conduct (rest result)) :
    Behaves host config datagram conduct (program >>= rest) :=
  Program.Follows.bind first second

/-- A command sent while nothing is owed, other than a promotion. -/
theorem command (settled : conduct.owes = false) (redis : Context) {request : Redis.Command}
    (sends : conduct.sends host config datagram request)
    (notRename : ∀ source target, request ≠ .rename source target) :
    Behaves host config datagram conduct (redisCommand (some redis) request) := by
  refine ⟨?_, fun reply => ?_⟩
  · simpa [Conduct.protocol, Conduct.permits, settled] using sends
  · cases request with
    | rename source target => exact absurd rfl (notRename source target)
    | hincrby _ _ _ => rfl
    | _ => exact settled

end Behaves

/-! ## Handlers -/

/-- A promotion is followed by the increment it owes. -/
theorem btPromotePeer_behaves {conduct : Conduct} (settled : conduct.owes = false)
    (redis : Context) (action : datagram.action host = some .announce)
    (completed : datagram.event host = some .completed) :
    Behaves host config datagram conduct
      (btPromotePeer (some redis) config (infoHashText (datagram.announce host).infoHash)
        (datagram.announce host).peerId) := by
  refine ⟨?_, fun reply => ?_⟩
  · simp only [Conduct.protocol, Conduct.permits, settled, Bool.false_eq_true, if_false]
    exact ⟨action, completed, rfl, rfl⟩
  · cases reply with
    | none => rfl
    | some reply =>
        change Behaves host config datagram { conduct with owes := !reply.isError }
          (if reply.isError then pure () else btIncrementDownloads (some redis) config _)
        cases failed : reply.isError with
        | true => exact rfl
        | false => exact ⟨⟨action, rfl⟩, fun _ => rfl⟩

/-- The record that is stored carries the address that was just read. -/
theorem registerPeer_behaves {conduct : Conduct} (settled : conduct.owes = false)
    (redis : Context) (action : datagram.action host = some .announce)
    (registers : datagram.Registers host) :
    Behaves host config datagram conduct (do
      let sockaddr ← perform (Op.loadSockaddr datagram.params.fromAddr)
      let peer ← btNewPeer (datagram.announce host) (ntohl host sockaddr.sAddr)
      btInsertPeer host (some redis) config (infoHashText (datagram.announce host).infoHash)
        (datagram.announce host).peerId peer (datagram.isSeeder host)) := by
  refine ⟨⟨settled, rfl, action⟩, fun address => ⟨settled, fun padding => ?_⟩⟩
  change Behaves host config datagram { conduct with sender := some address }
    (btInsertPeer host (some redis) config _ _ (datagram.recordFrom host address padding) _)
  have kept : ({ conduct with sender := some address } : Conduct).owes = false := settled
  refine Behaves.bind (Behaves.command kept redis ?_ nofun) fun _ _ settled => settled
  exact .inr ⟨action, registers, rfl, rfl, address, padding, rfl, rfl⟩

theorem btUpdatePeerList_behaves {conduct : Conduct} (settled : conduct.owes = false)
    (redis : Context) (action : datagram.action host = some .announce) :
    Behaves host config datagram conduct
      (btUpdatePeerList host (some redis) config (datagram.announce host)
        datagram.params.fromAddr (infoHashText (datagram.announce host).infoHash)
        (datagram.isSeeder host)) := by
  rw [btUpdatePeerList, ← Datagram.event]
  cases event : datagram.event host with
  | none => exact settled
  | some kind =>
      cases kind with
      | stopped =>
          refine Behaves.bind (Behaves.command settled redis ?_ nofun) fun _ _ settled => settled
          exact ⟨action, event, rfl⟩
      | completed => exact btPromotePeer_behaves settled redis action event
      | none => exact registerPeer_behaves settled redis action (.inl event)
      | started => exact registerPeer_behaves settled redis action (.inr event)

theorem btValidRequest_behaves {conduct : Conduct} (settled : conduct.owes = false)
    (redis : Option Context) :
    Behaves host config datagram conduct
      (btValidRequest host redis config (datagram.request host) datagram.params.buflen) := by
  have browses : Worker.Browses (· = datagram.connectionKey host config) (btValidRequest host
      redis config (datagram.request host) datagram.params.buflen) :=
    btValidRequest_browses _ _ _ _ _ rfl
  exact browses.behaves settled

theorem btHandleConnection_behaves {conduct : Conduct} (settled : conduct.owes = false)
    (redis : Context) (action : datagram.action host = some .connect) :
    Behaves host config datagram conduct
      (btHandleConnection host (datagram.request host) config datagram.params.buflen
        (some redis)) := by
  refine Behaves.bind (btValidRequest_behaves settled _)
    fun valid _ settled => ?_
  cases valid with
  | false => exact settled
  | true =>
      refine Behaves.bind ((btRandomInt64_browses host).behaves settled)
        fun connectionId _ settled => ?_
      refine Behaves.bind (Behaves.bind (Behaves.command settled redis ?_ nofun)
        fun _ _ settled => settled) fun _ _ settled => ?_
      · exact .inl ⟨action, connectionId, rfl⟩
      · rw [btSerializeConnectionResponse]
        exact Behaves.bind ((Worker.Browses.ofOption (by decide) _).behaves settled)
          fun _ _ settled => settled

theorem btHandleAnnounce_behaves {conduct : Conduct} (settled : conduct.owes = false)
    (redis : Context) (action : datagram.action host = some .announce) :
    Behaves host config datagram conduct
      (btHandleAnnounce host (datagram.request host) config datagram.params.buff
        datagram.params.buflen datagram.params.fromAddr (some redis)) := by
  refine Behaves.bind (btValidRequest_behaves settled _)
    fun valid _ settled => ?_
  cases valid with
  | false => exact settled
  | true =>
      refine Behaves.bind ((btInfoHashBlacklisted_browses _ _ _).behaves settled)
        fun refused _ settled => ?_
      cases refused with
      | true =>
          exact Behaves.bind ((btSendError_browses host _ _).behaves settled)
            fun _ _ settled => settled
      | false =>
          refine Behaves.bind (btUpdatePeerList_behaves settled redis action)
            fun _ _ settled => ?_
          exact Behaves.bind ((answerAnnounce_browses ..).behaves settled)
            fun _ _ settled => settled

theorem respond_behaves {conduct : Conduct} (settled : conduct.owes = false)
    (response : Option Block) :
    Behaves host config datagram conduct (respond datagram.params response) := by
  cases response with
  | none => exact settled
  | some data => exact ⟨⟨settled, rfl⟩, fun _ => settled⟩

theorem dispatch_behaves {conduct : Conduct} (settled : conduct.owes = false)
    (redis : Context) :
    Behaves host config datagram conduct
      (dispatch host config datagram.params (datagram.request host) none (some redis)) := by
  rw [dispatch, ← Datagram.action]
  cases action : datagram.action host with
  | none => exact settled
  | some kind =>
      cases kind with
      | connect => exact btHandleConnection_behaves settled redis action
      | announce => exact btHandleAnnounce_behaves settled redis action
      | scrape =>
          have browses : Worker.Browses (· = datagram.connectionKey host config)
              (btHandleScrape host (datagram.request host) config datagram.params.buff
                datagram.params.buflen (some redis)) :=
            btHandleScrape_browses _ _ _ _ _ _ rfl
          exact browses.behaves settled
      | error => exact settled

/-- Every job, from its first operation on, whatever the environment answers. -/
theorem btRequestProcessor_behaves :
    Behaves host config datagram .initial
      (btRequestProcessor host config datagram.params) := by
  refine Behaves.bind ((acquireRedis_browses config).behaves rfl) fun redis _ settled => ?_
  cases redis with
  | none =>
      exact Behaves.bind
        (Behaves.bind ((btSendError_browses host _ storageUnavailable).behaves settled)
          fun _ _ settled => settled)
        fun response _ settled => respond_behaves settled response
  | some redis =>
      exact Behaves.bind (dispatch_behaves settled redis)
        fun response _ settled => respond_behaves settled response

/-! ## What a job writes -/

/-- Every key a job may write, with the command that writes it. -/
inductive Conduct.Writes (host : Host) (config : BtConfig) (datagram : Datagram) :
    Redis.Command → KeyName → Prop where
  | connection (connectionId : BitVec 64) (seconds : Int) (value : Bytes) :
      Writes host config datagram
        (.setex ((KeyName.connection connectionId).encode host config) seconds value)
        (.connection connectionId)
  | inserts (registers : datagram.Registers host) (seconds : Int) (value : Bytes) :
      Writes host config datagram
        (.setex (datagram.recordKey host config (datagram.isSeeder host)) seconds value)
        (datagram.peerKeyName host (datagram.isSeeder host))
  | removes : Writes host config datagram
      (.del (datagram.recordKey host config (datagram.isSeeder host)))
      (datagram.peerKeyName host (datagram.isSeeder host))
  | promotes (isSeeder : Bool) : Writes host config datagram
      (datagram.promoteCommand host config) (datagram.peerKeyName host isSeeder)
  | counts : Writes host config datagram (datagram.countCommand host config)
      (.torrent (datagram.announce host).infoHash)

/-- Whatever a job writes stands under a key of the grammar. -/
theorem Conduct.permits.exists_writes {conduct : Conduct} {redis : Context}
    {request : Redis.Command} {key : Bytes}
    (permitted : conduct.permits host config datagram (.redisCommand redis request))
    (member : key ∈ request.writes) :
    ∃ name : KeyName, key = name.encode host config ∧
      Writes host config datagram request name := by
  cases owes : conduct.owes with
  | true =>
      simp only [permits, owes, if_true] at permitted
      obtain ⟨-, rfl⟩ := permitted
      exact ⟨_, List.mem_singleton.mp member, .counts⟩
  | false =>
      simp only [permits, owes, Bool.false_eq_true, if_false] at permitted
      cases request with
      | setex written seconds value =>
          rcases permitted with ⟨-, connectionId, rfl⟩ | ⟨-, registers, rfl, -⟩
          · exact ⟨.connection connectionId, List.mem_singleton.mp member, .connection ..⟩
          · exact ⟨_, List.mem_singleton.mp member, .inserts registers seconds value⟩
      | del written =>
          obtain ⟨-, -, rfl⟩ := permitted
          exact ⟨_, List.mem_singleton.mp member, .removes⟩
      | rename source target =>
          obtain ⟨-, -, rfl, rfl⟩ := permitted
          rcases List.mem_pair.mp member with same | same
          · exact ⟨_, same, .promotes false⟩
          · exact ⟨_, same, .promotes true⟩
      | hincrby written field increment => exact permitted.elim
      | _ => cases member

theorem Conduct.permits.writes {conduct : Conduct} {redis : Context} {request : Redis.Command}
    {name : KeyName} (permitted : conduct.permits host config datagram (.redisCommand redis request))
    (member : name.encode host config ∈ request.writes) :
    Writes host config datagram request name := by
  obtain ⟨written, same, writes⟩ := permitted.exists_writes member
  rw [(KeyName.encode_inj host config).mp same]
  exact writes

/-- An announce stores its own record, with the address it has read. -/
theorem Conduct.permits.stores {conduct : Conduct} {redis : Context} {key value : Bytes}
    {seconds : Int}
    (permitted : conduct.permits host config datagram (.redisCommand redis (.setex key seconds value)))
    (announces : datagram.action host = some .announce) :
    ∃ address padding, conduct.sender = some address ∧
      key = datagram.recordKey host config (datagram.isSeeder host) ∧ seconds = config.peerTtl ∧
      value = (datagram.recordFrom host address padding).image host := by
  have settled : conduct.owes = false := by
    cases owes : conduct.owes with
    | false => rfl
    | true => simp [permits, owes, Datagram.countCommand] at permitted
  simp only [permits, settled, Bool.false_eq_true, if_false, sends] at permitted
  rcases permitted with ⟨connects, -⟩ | ⟨-, -, own, lasts, address, padding, loaded, same⟩
  · rw [announces] at connects
    cases connects
  · exact ⟨address, padding, loaded, own, lasts, same⟩

/-- The key of a torrent is written by the increments for it only. -/
theorem Conduct.writes_torrent {conduct : Conduct} {redis : Context} {request : Redis.Command}
    {infoHash : Octets 20}
    (permitted : conduct.permits host config datagram (.redisCommand redis request))
    (member : (KeyName.torrent infoHash).encode host config ∈ request.writes) :
    request = datagram.countCommand host config ∧
      (datagram.announce host).infoHash = infoHash := by
  generalize named : KeyName.torrent infoHash = name at member
  cases permitted.writes member with
  | counts =>
      cases named
      exact ⟨rfl, rfl⟩
  | _ => cases named

end BtTracker
