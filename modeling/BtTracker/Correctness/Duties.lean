import BtTracker.Correctness.Conduct
import BtTracker.Correctness.Screening

/-!
# What an announce does to the database, step by step

As long as the environment does not stand in its way, a job that announces a peer
sends the commands of its event, one after the other, and nothing else that writes.
-/

namespace BtTracker

open BtTracker.Foundation

/-- Whether a connection attempt succeeded. -/
def ConnectResult.isOpened : ConnectResult → Bool
  | .opened _ => true
  | .noMemory | .failed _ => false

/-- What a job has still to do: its whole update, the increment for a promotion, or
nothing. -/
inductive Duty where
  | update
  | increment
  | nothing
  deriving DecidableEq, Repr

namespace Duty

variable (host : Host) (config : BtConfig) (datagram : Datagram)

/-- What an announce has to do at first. -/
def initial : Duty := if datagram.event host = none then .nothing else .update

/-- The commands that are due. -/
inductive Due : Duty → Redis.Command → Prop where
  | inserts (registers : datagram.Registers host) (padding : Octets 6) :
      Due .update (datagram.insertCommand host config padding)
  | removes (stopped : datagram.event host = some .stopped) :
      Due .update (datagram.removeCommand host config)
  | promotes (completed : datagram.event host = some .completed) :
      Due .update (datagram.promoteCommand host config)
  | counts : Due .increment (datagram.countCommand host config)

/-- What is left to do after an operation. -/
def next (duty : Duty) : (op : Op) → op.Answer → Duty
  | .redisCommand _ (.setex ..), _ | .redisCommand _ (.del _), _
  | .redisCommand _ (.hincrby ..), _ => .nothing
  | .redisCommand _ (.rename ..), reply =>
      if Conduct.confirms reply then .increment else .nothing
  | _, _ => duty

/-- Looking around leaves everything to do. -/
theorem next_of_observes {op : Op} (observes : op.Observes) (duty : Duty) (answer : op.Answer) :
    duty.next op answer = duty := by
  cases op with
  | redisCommand redis request =>
      cases request with
      | setex _ _ _ | del _ | rename _ _ | hincrby _ _ _ => exact absurd observes id
      | _ => rfl
  | _ => rfl

/-- Whether an answer lets an announce go on: a connection can be had and is alive, the
connection id passes, the info hash is not refused, and the address of the sender, if
it is needed, is the one of its own sender. -/
def favours : (op : Op) → op.Answer → Bool
  | .redisConnect .., result => result.isOpened
  | .redisCommand _ .ping, reply => Conduct.confirms reply
  | .redisCommand _ (.get key), reply =>
      decide (key ≠ datagram.connectionKey host config) || Conduct.confirms reply
  | .redisCommand _ (.sismember key member), reply =>
      decide (key ≠ restrictionKey config config.infoHashRestriction.listName ∨
        member ≠ infoHashText (datagram.announce host).infoHash) ||
        !config.infoHashRestriction.refuses reply
  | .loadSockaddr _, address =>
      decide ((datagram.announce host).ipv4Addr ≠ 0) ||
        decide (address.sAddr = datagram.sender.sAddr)
  | _, _ => true

/-- The protocol of an announce.  Nothing is promised once an answer has stood in its
way. -/
def protocol : Program.Protocol Op Op.Answer Fault (Option Duty) where
  allows phase op := ∀ duty, phase = some duty → ∀ redis request,
    op = .redisCommand redis request → ¬request.ReadOnly → Due host config datagram duty request
  next phase op answer :=
    if favours host config datagram op answer then phase.map (·.next op answer) else none
  tolerates phase _ := phase = none ∨ phase = some .nothing

/-- A program that does a part of the duties of an announce. -/
abbrev Serves {α : Type} (phase : Option Duty) (program : Worker α)
    (post : α → Option Duty → Prop) : Prop :=
  Program.Follows (protocol host config datagram) post phase program

end Duty

namespace Duty.Serves

variable {host : Host} {config : BtConfig} {datagram : Datagram} {α : Type}

/-- Nothing is promised. -/
theorem of_none (program : Worker α) {post : α → Option Duty → Prop}
    (lax : ∀ result, post result none) : Serves host config datagram none program post := by
  induction program with
  | done result => exact lax result
  | fault reason => exact .inl rfl
  | call op next ih =>
      refine ⟨nofun, fun answer => ?_⟩
      have stays : (protocol host config datagram).next none op answer = none := by
        simp only [protocol, Option.map_none, ite_self]
      rw [stays]
      exact ih answer

/-- Looking around is not a duty, and a job that has nothing left to do may fail at
it. -/
theorem of_observes {program : Worker α} (observes : program.Observes) :
    Serves host config datagram (some .nothing) program
      fun _ last => last = none ∨ last = some .nothing := by
  refine (Program.Follows.simulate (fun _ last => last = none ∨ last = some Duty.nothing)
    ?_ ?_ observes (.inr rfl)).mono ?_
  · intro phase last op idle allowed
    constructor
    · rintro duty - redis request rfl writes
      exact absurd allowed writes
    · intro answer
      simp only [protocol]
      split
      · rcases idle with rfl | rfl
        · exact .inl rfl
        · exact .inr (congrArg some (next_of_observes allowed .nothing answer))
      · exact .inl rfl
  · exact fun _ _ _ idle _ => idle
  · rintro result last ⟨_, idle, -⟩
    exact idle

end Duty.Serves

namespace Duty

variable {host : Host} {config : BtConfig} {datagram : Datagram}

/-! ## Before the update -/

/-- A command that only looks, and what becomes of the job after each answer. -/
theorem serves_question {α : Type} {duty : Duty} {redis : Context} {request : Redis.Command}
    (readOnly : request.ReadOnly) {next : Option Redis.Reply → Worker α}
    {post : α → Option Duty → Prop}
    (goes : ∀ reply, favours host config datagram (.redisCommand redis request) reply = true →
      Serves host config datagram (some duty) (next reply) post)
    (lax : ∀ result, post result none) :
    Serves host config datagram (some duty) (.call (.redisCommand redis request) next) post := by
  constructor
  · rintro _ - _ _ ⟨⟩ writes
    exact absurd readOnly writes
  · intro reply
    have looks : (Op.redisCommand redis request).Observes := readOnly
    simp only [protocol]
    split
    · rw [Option.map_some, next_of_observes looks]
      exact goes reply ‹_›
    · exact Serves.of_none _ lax

/-- A job gets a context unless something stands in its way. -/
theorem openRedis_serves (config : BtConfig) (duty : Duty) :
    Serves host config datagram (some duty) (openRedis config)
      fun redis last => last = none ∨ last = some duty ∧ redis.isSome := by
  refine ⟨nofun, fun result => ?_⟩
  cases result with
  | noMemory | failed redis => exact Serves.of_none _ fun _ => .inl rfl
  | opened redis =>
      exact serves_question (by trivial) (fun _ _ => ⟨nofun, fun _ => .inr ⟨rfl, rfl⟩⟩)
        fun _ => .inl rfl

theorem acquireRedis_serves (config : BtConfig) (duty : Duty) :
    Serves host config datagram (some duty) (acquireRedis config)
      fun redis last => last = none ∨ last = some duty ∧ redis.isSome := by
  refine ⟨nofun, fun slot => ?_⟩
  cases slot with
  | none => exact openRedis_serves config duty
  | some redis =>
      refine serves_question (by trivial) (fun reply alive => ?_) fun _ => .inl rfl
      cases reply with
      | none => cases alive
      | some reply =>
          have pong : reply.isError = false := by simpa [favours, Conduct.confirms] using alive
          change Serves host config datagram (some duty)
            (if !reply.isError then pure (some redis) else openRedis config) _
          rw [pong]
          exact .inr ⟨rfl, rfl⟩

/-- An announce that is long enough is accepted. -/
theorem btValidRequest_serves (duty : Duty) (redis : Context)
    (action : datagram.action host = some .announce) (long : 20 ≤ datagram.params.buflen) :
    Serves host config datagram (some duty)
      (btValidRequest host (some redis) config (datagram.request host) datagram.params.buflen)
      fun valid last => last = none ∨ last = some duty ∧ valid = true := by
  rw [btValidRequest, ← Datagram.action, action]
  dsimp only
  rw [if_pos long]
  refine serves_question (by trivial) (fun reply accepted => ?_) fun _ => .inl rfl
  have confirmed : Conduct.confirms reply = true := by
    simpa [favours, Datagram.connectionKey] using accepted
  cases reply with
  | none => cases confirmed
  | some reply => exact .inr ⟨rfl, confirmed⟩

/-- Its torrent is not refused. -/
theorem btInfoHashBlacklisted_serves (duty : Duty) (redis : Context) :
    Serves host config datagram (some duty)
      (btInfoHashBlacklisted (some redis) config (infoHashText (datagram.announce host).infoHash))
      fun refused last => last = none ∨ last = some duty ∧ refused = false := by
  by_cases unrestricted : config.infoHashRestriction = .none
  · rw [btInfoHashBlacklisted, unrestricted]
    exact .inr ⟨rfl, rfl⟩
  · rw [btInfoHashBlacklisted_eq unrestricted]
    refine serves_question (by trivial) (fun reply permitted => ?_) fun _ => .inl rfl
    exact .inr ⟨rfl, by simpa [favours] using permitted⟩

/-! ## The update -/

/-- Reading the address, filling the record and storing it. -/
theorem registerPeer_serves (redis : Context) (registers : datagram.Registers host) :
    Serves host config datagram (some .update) (do
      let sockaddr ← perform (Op.loadSockaddr datagram.params.fromAddr)
      let peer ← btNewPeer (datagram.announce host) (ntohl host sockaddr.sAddr)
      btInsertPeer host (some redis) config (infoHashText (datagram.announce host).infoHash)
        (datagram.announce host).peerId peer (datagram.isSeeder host))
      fun _ last => last = none ∨ last = some .nothing := by
  refine ⟨nofun, fun address => ?_⟩
  simp only [protocol]
  split
  · rename_i own
    refine ⟨nofun, fun padding => ⟨?_, fun _ => .inr rfl⟩⟩
    rintro _ ⟨⟩ _ _ ⟨⟩ -
    have same : datagram.recordFrom host address padding = datagram.record host padding := by
      by_cases unnamed : (datagram.announce host).ipv4Addr = 0
      · have sender : address.sAddr = datagram.sender.sAddr := by
          simpa [favours, unnamed] using own
        rw [Datagram.record, Datagram.recordFrom, Datagram.recordFrom, sender]
      · simp only [Datagram.record, Datagram.recordFrom, newPeer, unnamed, if_false]
    have inserted : Due host config datagram .update (datagram.insertCommand host config padding) :=
      .inserts registers padding
    rw [Datagram.insertCommand, ← same] at inserted
    exact inserted
  · exact Serves.of_none _ fun _ => .inl rfl

/-- A confirmed promotion is counted. -/
theorem btPromotePeer_serves (redis : Context)
    (completed : datagram.event host = some .completed) :
    Serves host config datagram (some .update)
      (btPromotePeer (some redis) config (infoHashText (datagram.announce host).infoHash)
        (datagram.announce host).peerId)
      fun _ last => last = none ∨ last = some .nothing := by
  constructor
  · rintro _ ⟨⟩ _ _ ⟨⟩ -
    exact .promotes completed
  · intro reply
    cases reply with
    | none => exact .inr rfl
    | some reply =>
        change Serves host config datagram
          (some (if !reply.isError then .increment else .nothing))
          (if reply.isError then pure () else btIncrementDownloads (some redis) config _) _
        cases reply.isError with
        | true => exact .inr rfl
        | false =>
            refine ⟨?_, fun _ => .inr rfl⟩
            rintro _ ⟨⟩ _ _ ⟨⟩ -
            exact .counts

theorem btUpdatePeerList_serves (redis : Context) :
    Serves host config datagram (some (initial host datagram))
      (btUpdatePeerList host (some redis) config (datagram.announce host)
        datagram.params.fromAddr (infoHashText (datagram.announce host).infoHash)
        (datagram.isSeeder host))
      fun _ last => last = none ∨ last = some .nothing := by
  rw [btUpdatePeerList, ← Datagram.event, initial]
  cases event : datagram.event host with
  | none => exact .inr rfl
  | some kind =>
      cases kind with
      | none => exact registerPeer_serves redis (.inl event)
      | started => exact registerPeer_serves redis (.inr event)
      | completed => exact btPromotePeer_serves redis event
      | stopped =>
          refine ⟨?_, fun _ => .inr rfl⟩
          rintro _ ⟨⟩ _ _ ⟨⟩ -
          exact .removes event

/-! ## The whole job -/

/-- What is left after the update only looks, apart from the response. -/
theorem serves_rest {α β : Type} {first : Worker α} {rest : α → Worker β}
    {phase : Option Duty} (done : Serves host config datagram phase first
      fun _ last => last = none ∨ last = some .nothing)
    (idles : ∀ result, Serves host config datagram (some .nothing) (rest result)
      fun _ last => last = none ∨ last = some .nothing) :
    Serves host config datagram phase (first >>= rest)
      fun _ last => last = none ∨ last = some .nothing := by
  refine Program.Follows.bind done fun result last ended => ?_
  rcases ended with rfl | rfl
  · exact Serves.of_none _ fun _ => .inl rfl
  · exact idles result

theorem btHandleAnnounce_serves (redis : Context)
    (action : datagram.action host = some .announce) (long : 20 ≤ datagram.params.buflen) :
    Serves host config datagram (some (initial host datagram))
      (btHandleAnnounce host (datagram.request host) config datagram.params.buff
        datagram.params.buflen datagram.params.fromAddr (some redis))
      fun _ last => last = none ∨ last = some .nothing := by
  refine Program.Follows.bind (btValidRequest_serves _ redis action long) fun valid last ready => ?_
  rcases ready with rfl | ⟨rfl, rfl⟩
  · exact Serves.of_none _ fun _ => .inl rfl
  refine Program.Follows.bind (btInfoHashBlacklisted_serves _ redis) fun refused last ready => ?_
  rcases ready with rfl | ⟨rfl, rfl⟩
  · exact Serves.of_none _ fun _ => .inl rfl
  · exact serves_rest (btUpdatePeerList_serves redis) fun _ =>
      serves_rest (Serves.of_observes (answerAnnounce_observes ..)) fun _ => .inr rfl

/-- An announce of at least twenty bytes does its duty, unless something stands in its
way. -/
theorem btRequestProcessor_serves (action : datagram.action host = some .announce)
    (long : 20 ≤ datagram.params.buflen) :
    Serves host config datagram (some (initial host datagram))
      (btRequestProcessor host config datagram.params)
      fun _ last => last = none ∨ last = some .nothing := by
  refine Program.Follows.bind (acquireRedis_serves config _) fun redis last ready => ?_
  rcases ready with rfl | ⟨rfl, linked⟩
  · exact Serves.of_none _ fun _ => .inl rfl
  obtain ⟨redis, rfl⟩ := Option.isSome_iff_exists.mp linked
  refine serves_rest ?_ fun response => ?_
  · rw [dispatch, ← Datagram.request, ← Datagram.action, action]
    exact btHandleAnnounce_serves redis action long
  · cases response with
    | none => exact .inr rfl
    | some data => exact ⟨fun _ _ _ _ sends => (by cases sends), fun _ => .inr rfl⟩

end Duty

end BtTracker
