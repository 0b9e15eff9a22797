import BtTracker.Correctness.Threads
import BtTracker.Correctness.Wire

/-!
# Whose address is it

The bytes of a datagram are copied for the job that handles it, but the address
of its sender is not: every job points to the one cell the receive loop writes.
A response therefore goes to, and a record may carry, the address of whichever
datagram was received last.
-/

namespace BtTracker

open BtTracker.Foundation

variable (host : Host) (config : BtConfig)

/-- What a thread did for a job concerns the sender of the job's own datagram:
responses go there, and so does the address in a record whose announce names
none. -/
structure Performed.Attributed (performed : Performed) : Prop where
  sent : ∀ message ∈ performed.sent, message.1 = performed.job.sender
  stored : ∀ redis key seconds value,
    performed.op = .redisCommand redis (.setex key seconds value) →
    performed.job.action host = some .announce →
    (performed.job.announce host).ipv4Addr = 0 →
      ∃ padding, value = (performed.job.record host padding).image host ∧
        (performed.job.record host padding).ipv4Addr = ntohl host performed.job.sender.sAddr

/-- The bytes of the address in the record an operation stores. -/
def Performed.storedAddr? (performed : Performed) : Option Bytes :=
  match performed.op with
  | .redisCommand _ (.setex _ _ value) => some ((value.drop peerAddrOffset).take 4)
  | _ => none

/-- The sender of the datagram received last. -/
def lastSender : List Action → Option SockaddrIn
  | [] => none
  | .receive sender _ :: _ => some sender
  | _ :: schedule => lastSender schedule

/-- The operations that make use of the sender's address: sending, and reading
the address for an announce that names none. -/
def Op.UsesSender (job : Datagram) : Op → Prop
  | .sendto .. => True
  | .loadSockaddr _ => (job.announce host).ipv4Addr = 0
  | _ => False

/-- A thread makes use of the sender's address only while the datagram received
last comes from the sender of its own job. -/
def Timely (schedule : List Action) (pool : Pool) : Action → Prop
  | .step index _ => ∀ slot job op next,
      pool.threads[index]? = some ⟨slot, some (job, .call op next)⟩ →
        op.UsesSender host job → lastSender schedule = some job.sender
  | _ => True

namespace Pool

variable {host config} {pool after : Pool} {action : Action} {schedule : List Action}

/-- The cell holds the sender of the datagram received last. -/
theorem siOther_act {sender : SockaddrIn} (possible : pool.phase.allows action = true)
    (holds : ∀ sender, lastSender schedule = some sender → pool.siOther = sender)
    (last : lastSender (action :: schedule) = some sender) :
    (pool.act host config action).siOther = sender := by
  by_cases receives : ∃ other data, action = .receive other data
  · obtain ⟨other, data, rfl⟩ := receives
    rw [act, if_pos possible]
    exact Option.some.inj last
  · have before : lastSender schedule = some sender := by
      rw [lastSender] at last
      · exact last
      · exact fun other data same => receives ⟨other, data, same⟩
    have changes := pool.changes_act host config action
    generalize pool.act host config action = after at changes ⊢
    cases changes with
    | receive other data serving => exact absurd ⟨other, data, rfl⟩ receives
    | _ => exact holds sender before

/-- The address a job remembers, if its announce depends on it, is its sender's. -/
def Remembers (host : Host) (job : Datagram) (conduct : Conduct) : Prop :=
  (job.announce host).ipv4Addr = 0 →
    ∀ address, conduct.sender = some address → address = job.sender

theorem remembers_next {slot : Option Context} {job : Datagram} {op : Op} {choice : Choice}
    {conduct : Conduct} (own : op.UsesSender host job → pool.siOther = job.sender)
    (remembers : Remembers host job conduct) :
    Remembers host job (conduct.next op (World.exec op (pool.world slot choice)).1) := by
  cases op with
  | loadSockaddr pointer =>
      intro unnamed address loaded
      cases pointer
      exact (Option.some.inj loaded).symm.trans (own unnamed)
  | redisCommand redis request =>
      cases request <;> exact remembers
  | _ => exact remembers

/-- One operation that respects the sender. -/
theorem attributed_perform {slot : Option Context} {job : Datagram} {op : Op} {choice : Choice}
    {conduct : Conduct} (own : op.UsesSender host job → pool.siOther = job.sender)
    (permitted : conduct.permits host config job op) (remembers : Remembers host job conduct) :
    Performed.Attributed host ⟨job, op, (World.exec op (pool.world slot choice)).1,
      (World.exec op (pool.world slot choice)).2.sent⟩ := by
  constructor
  · intro message member
    cases op with
    | sendto pointer data =>
        cases pointer
        rw [List.mem_singleton.mp member]
        exact own trivial
    | _ => cases member
  · rintro redis key seconds value rfl announces unnamed
    obtain ⟨address, padding, loaded, -, -, rfl⟩ := permitted.stores announces
    rw [remembers unnamed address loaded]
    refine ⟨padding, rfl, ?_⟩
    simp only [Datagram.record, Datagram.recordFrom, newPeer, unnamed, if_true]

/-- In every schedule that is timely throughout, every response goes to the
sender of the datagram it answers, and every record of an announce that names no
address carries the one of its sender. -/
theorem Reached.attributed (reached : Reached host config (Timely host) schedule pool) :
    ∀ performed ∈ pool.log, performed.Attributed host := by
  suffices invariant : (∀ sender, lastSender schedule = some sender → pool.siOther = sender) ∧
      pool.Conforms host config (Remembers host) ∧
      ∀ performed ∈ pool.log, performed.Attributed host from invariant.2.2
  induction reached with
  | start => exact ⟨nofun, .start, nofun⟩
  | @act schedule pool reached action possible timely ih =>
      obtain ⟨cell, conforms, attributed⟩ := ih
      have own : ∀ index choice slot job op next, action = .step index choice →
          pool.threads[index]? = some ⟨slot, some (job, .call op next)⟩ →
            op.UsesSender host job → pool.siOther = job.sender := by
        rintro index choice slot job op next rfl calls uses
        exact cell _ (timely slot job op next calls uses)
      have changes := pool.changes_act host config action
      refine ⟨fun sender last => siOther_act possible cell last, ?_, ?_⟩
      · refine conforms.changes changes (fun _ _ _ => nofun) ?_
        intro index slot job op next choice conduct step calls _ remembers
        exact remembers_next (own index choice slot job op next step calls) remembers
      · generalize result : pool.act host config action = after at changes ⊢
        cases changes with
        | perform choice calls =>
            obtain ⟨conduct, follows, remembers⟩ := conforms.behaves calls
            intro performed member
            rcases List.mem_cons.mp member with rfl | earlier
            · exact attributed_perform (own _ choice _ _ _ _ rfl calls) follows.1 remembers
            · exact attributed performed earlier
        | _ => exact attributed

/-! ## One client after the other -/

/-- A datagram of another client is received only when no job is pending. -/
def Orderly (_ : List Action) (pool : Pool) : Action → Prop
  | .receive sender _ => ∀ job ∈ pool.queue ++ pool.running, job.sender = sender
  | _ => True

instance (schedule : List Action) (pool : Pool) (action : Action) :
    Decidable (Orderly schedule pool action) :=
  match action with
  | .receive sender _ =>
      inferInstanceAs (Decidable (∀ job ∈ pool.queue ++ pool.running, job.sender = sender))
  | .step .. | .spawn | .take _ | .terminate | .leave | .wait _ | .edit .. => .isTrue trivial

/-- Then nobody can notice that the cell is shared. -/
theorem Reached.timely (reached : Reached host config Orderly schedule pool) :
    Reached host config (Timely host) schedule pool ∧
      ∀ job ∈ pool.queue ++ pool.running, lastSender schedule = some job.sender := by
  induction reached with
  | start => exact ⟨.start, List.forall_mem_nil _⟩
  | @act schedule pool reached action possible orderly ih =>
      obtain ⟨timely, last⟩ := ih
      constructor
      · refine timely.act action possible ?_
        cases action with
        | step index choice =>
            intro slot job op next calls _
            exact last job (List.mem_append_right _ (mem_running calls))
        | _ => trivial
      · intro job member
        rcases (pool.changes_act host config action).jobs job member with
          before | ⟨sender, data, rfl, rfl⟩
        · cases action with
          | receive sender data => exact congrArg some (orderly job before).symm
          | _ => exact last job before
        · rfl

/-- Two leechers without an address of their own, the second one of which announces
itself when the first one has got its response. -/
def oneByOne : List Action :=
  [.spawn, .receive ⟨1, 1⟩ (BtAnnounceReq.sample 5 2).datagram, .take 0] ++
    List.replicate 40 (.step 0 .calm) ++
    [.receive ⟨2, 2⟩ { BtAnnounceReq.sample 5 2 with peerId := fun _ => 9 }.datagram, .take 0] ++
    List.replicate 40 (.step 0 .calm)

/-- Each client gets its response, and each of the two records carries the address of
its own client. -/
theorem attributed_oneByOne :
    ((start.run .little .shipped oneByOne).log.flatMap (·.sent)).map (·.1) =
        [⟨2, 2⟩, ⟨1, 1⟩] ∧
      (start.run .little .shipped oneByOne).log.filterMap Performed.storedAddr? =
        [ByteOrder.little.store (ntohl .little 2), ByteOrder.little.store (ntohl .little 1)] ∧
      ∀ performed ∈ (start.run .little .shipped oneByOne).log, performed.Attributed .little := by
  have reached : Reached .little .shipped Orderly (oneByOne.reverse ++ [])
      (start.run .little .shipped oneByOne) :=
    Reached.along .start oneByOne (by decide +kernel) (by decide +kernel)
  exact ⟨by decide +kernel, by decide +kernel, reached.timely.1.attributed⟩

/-- A second client whose datagram arrives before the first one is handled. -/
def twoClients : List Action :=
  [.receive ⟨1, 1⟩ (BtReq.datagram ⟨btProtocolId, 0, 7⟩),
    .receive ⟨2, 2⟩ (BtReq.datagram ⟨btProtocolId, 0, 8⟩), .spawn, .take 0] ++
    List.replicate 14 (.step 0 .calm)

/-- The second client gets the response to the first one. -/
theorem not_attributed_twoClients :
    Reached .little .shipped (fun _ _ _ => True) (twoClients.reverse ++ [])
        (start.run .little .shipped twoClients) ∧
      ∃ performed ∈ (start.run .little .shipped twoClients).log,
        performed.job.sender = ⟨1, 1⟩ ∧ ¬performed.Attributed .little := by
  refine ⟨Reached.run .start twoClients (by decide +kernel) fun _ _ => trivial, ?_⟩
  have misdirected : ((start.run .little .shipped twoClients).log.any fun performed =>
      decide (performed.job.sender = ⟨1, 1⟩) &&
        performed.sent.any fun message => decide (message.1 ≠ performed.job.sender)) = true := by
    decide +kernel
  obtain ⟨performed, member, wrong⟩ := List.any_eq_true.mp misdirected
  simp only [Bool.and_eq_true, decide_eq_true_eq, List.any_eq_true] at wrong
  obtain ⟨first, message, sent, other⟩ := wrong
  exact ⟨performed, member, first, fun attributed => other (attributed.sent message sent)⟩

end Pool

end BtTracker
