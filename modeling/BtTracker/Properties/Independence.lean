import BtTracker.Correctness.Duties
import BtTracker.Correctness.Records
import BtTracker.Foundation.Interleaving
import BtTracker.Properties.Delivery
import BtTracker.Properties.Progress
import BtTracker.Properties.Requests

/-!
# Peers do not get in each other's way

Announces of different peers write different records.  Those of one torrent share
the counter of downloads, but all they do to it is increment it, and nobody looks
at the result.  Whether a peer is promoted depends on its own record alone.  The one
thing a job reads that other datagrams change is the cell with the address of the
sender.
-/

namespace BtTracker

open BtTracker.Foundation
open BtTracker.Foundation.Program (Advances Commutes Confined Finished Separate sequential)

/-- What the database answers to a command. -/
@[reducible] def Redis.Command.Answer : Redis.Command → Type := fun _ => Redis.Reply

/-- The commands whose answers nobody looks at. -/
def Redis.Command.Counts : Redis.Command → Prop
  | .hincrby .. => True
  | _ => False

/-- The commands of a job, without anything else it does. -/
abbrev Session : Type := Program Redis.Command Redis.Command.Answer Empty Unit

namespace Datagram

variable (host : Host) (config : BtConfig) (datagram : Datagram)

/-- The peer that announces itself. -/
def peer : Octets 20 × Octets 20 :=
  ((datagram.announce host).infoHash, (datagram.announce host).peerId)

/-- What an announce asks for, and who sent it. -/
def announcement : BtAnnounceReq × SockaddrIn := (datagram.announce host, datagram.sender)

/-- The database answers whichever job asks. -/
def attend (_ : Datagram) (command : Redis.Command) (store : Redis.Store) :
    command.Answer × Redis.Store :=
  store.exec .sorted command

/-- The commands of an announce: writing the records of its peer, and counting a
download. -/
def Concerns (command : Redis.Command) : Prop :=
  ¬command.ReadOnly ∧
    ((∀ key ∈ command.writes, ∃ isSeeder, key = datagram.recordKey host config isSeeder) ∨
      command = datagram.countCommand host config)

end Datagram

/-- What a job has still to send, if the last bytes of a new record are zero. -/
def Duty.session (host : Host) (config : BtConfig) (datagram : Datagram) : Duty → Session
  | .nothing => .done ()
  | .increment => .call (datagram.countCommand host config) fun _ => .done ()
  | .update =>
      match datagram.event host with
      | none => .done ()
      | some .stopped => .call (datagram.removeCommand host config) fun _ => .done ()
      | some .completed => .call (datagram.promoteCommand host config) fun reply =>
          if reply.isError then .done ()
          else .call (datagram.countCommand host config) fun _ => .done ()
      | some .none | some .started =>
          .call (datagram.insertCommand host config fun _ => 0) fun _ => .done ()

/-! ## Announces of different peers commute -/

section Commuting

variable {host : Host} {config : BtConfig} {left right : Datagram}

theorem recordKey_ne (apart : left.peer host ≠ right.peer host) (first second : Bool) :
    left.recordKey host config first ≠ right.recordKey host config second := by
  intro equal
  have names := KeyName.encode_injective host config equal
  simp only [Datagram.peerKeyName, KeyName.peer.injEq] at names
  exact apart (Prod.ext names.1 names.2.2)

theorem torrentKey_ne (left right : Datagram) (isSeeder : Bool) :
    left.torrentKey host config ≠ right.recordKey host config isSeeder := by
  rw [Datagram.torrentKey, Datagram.recordKey, Ne, KeyName.encode_inj]
  exact KeyName.noConfusion

/-- The commands of different peers write different keys, or they count downloads
of one torrent. -/
theorem concerns_disjoint (apart : left.peer host ≠ right.peer host)
    {command other : Redis.Command} (concerns : left.Concerns host config command)
    (otherConcerns : right.Concerns host config other) :
    (∀ key ∈ command.writes, key ∉ other.writes) ∨
      (command = other ∧ command.Counts ∧ other.Counts) := by
  obtain ⟨_, records | rfl⟩ := concerns
  · left
    intro key written clash
    obtain ⟨isSeeder, rfl⟩ := records key written
    obtain ⟨_, others | rfl⟩ := otherConcerns
    · obtain ⟨role, same⟩ := others _ clash
      exact recordKey_ne apart isSeeder role same
    · exact torrentKey_ne right left isSeeder (List.mem_singleton.mp clash).symm
  · obtain ⟨_, others | rfl⟩ := otherConcerns
    · left
      intro key written clash
      obtain ⟨role, rfl⟩ := others key clash
      exact torrentKey_ne left right role (List.mem_singleton.mp written).symm
    · by_cases same : left.torrentKey host config = right.torrentKey host config
      · right
        rw [Datagram.countCommand, Datagram.countCommand, same]
        exact ⟨rfl, trivial, trivial⟩
      · left
        intro key written clash
        exact same ((List.mem_singleton.mp written).symm.trans (List.mem_singleton.mp clash))

/-- Whatever two announces of different peers do next, the order does not
matter. -/
theorem concerns_commutes (apart : left.peer host ≠ right.peer host) (command : Redis.Command)
    (concerns : left.Concerns host config command) (other : Redis.Command)
    (otherConcerns : right.Concerns host config other) :
    Commutes Redis.Command.Counts left.attend right.attend command other := by
  rcases concerns_disjoint apart concerns otherConcerns with disjoint | ⟨rfl, counts, counts'⟩
  · have disjoint' : ∀ key ∈ other.writes, key ∉ command.writes :=
      fun key written clash => disjoint key clash written
    refine ⟨fun store => ?_, .inr fun store => ?_, .inr fun store => ?_⟩
    · exact store.after_comm disjoint
    · exact Redis.Store.reply_congr concerns.1 (store.agreeOn_after disjoint) .sorted
    · exact Redis.Store.reply_congr otherConcerns.1 (store.agreeOn_after disjoint') .sorted
  · exact ⟨fun _ => rfl, .inl counts, .inl counts'⟩

end Commuting

/-! ## What an announce does by itself -/

namespace Duty

variable {host : Host} {config : BtConfig} {datagram : Datagram}

theorem concerns_of_record {command : Redis.Command} (writes : ¬command.ReadOnly)
    (isSeeder : Bool) (key : command.writes = [datagram.recordKey host config isSeeder]) :
    datagram.Concerns host config command := by
  refine ⟨writes, .inl fun written member => ⟨isSeeder, ?_⟩⟩
  rw [key] at member
  exact List.mem_singleton.mp member

theorem concerns_promote :
    datagram.Concerns host config (datagram.promoteCommand host config) := by
  refine ⟨id, .inl fun key written => ?_⟩
  rcases List.mem_pair.mp written with rfl | rfl
  · exact ⟨false, rfl⟩
  · exact ⟨true, rfl⟩

/-- A session keeps to the keys of its peer, and ignores what it is told about the
counter. -/
theorem session_confined (duty : Duty) :
    Confined (datagram.Concerns host config) Redis.Command.Counts
      (duty.session host config datagram) := by
  have counts : Confined (datagram.Concerns host config) Redis.Command.Counts
      (Duty.increment.session host config datagram) :=
    ⟨⟨id, .inr rfl⟩, fun _ _ _ => rfl, fun _ => trivial⟩
  cases duty with
  | nothing => trivial
  | increment => exact counts
  | update =>
      rw [session]
      split
      · trivial
      · exact ⟨concerns_of_record id (datagram.isSeeder host) rfl, False.elim, fun _ => trivial⟩
      · refine ⟨concerns_promote, False.elim, fun reply => ?_⟩
        dsimp only
        split
        · trivial
        · exact counts
      · exact ⟨concerns_of_record id (datagram.isSeeder host) rfl, False.elim, fun _ => trivial⟩
      · exact ⟨concerns_of_record id (datagram.isSeeder host) rfl, False.elim, fun _ => trivial⟩

/-- A promotion succeeds if there is a record to promote. -/
theorem isError_promote (store : Redis.Store) (listing : Redis.Listing) :
    (store.exec listing (datagram.promoteCommand host config)).1.isError =
      !(store.find? (datagram.recordKey host config false)).isSome := by
  rw [Datagram.promoteCommand, Redis.Store.exec]
  cases store.find? (datagram.recordKey host config false) <;> rfl

/-- Run to its end, a session does what `update` says. -/
theorem run_session (store : Redis.Store) :
    (Program.run datagram.attend
        ((initial host datagram).session host config datagram) store).2 =
      datagram.update host config (fun _ => 0) store := by
  rw [initial, Datagram.update]
  cases event : datagram.event host with
  | none => rfl
  | some kind =>
      simp only [reduceCtorEq, if_false, session, event]
      cases kind with
      | stopped | none | started => rfl
      | completed =>
          change (Program.run datagram.attend (if (store.exec .sorted
              (datagram.promoteCommand host config)).1.isError then .done ()
            else .call (datagram.countCommand host config) fun _ => .done ())
            (store.after (datagram.promoteCommand host config))).2 = _
          rw [isError_promote]
          cases found : store.find? (datagram.recordKey host config false) with
          | none => exact Redis.Store.after_rename_of_none _ found
          | some entry => rfl

/-- A command that is due is the next one of the session, up to the last bytes of the
record it stores. -/
theorem Due.session_eq {filed : Bytes → Prop} {left right : Redis.Store} {duty : Duty}
    {request : Redis.Command} (due : Due host config datagram duty request)
    (own : ∀ isSeeder, filed (datagram.recordKey host config isSeeder))
    (counter : ¬filed (datagram.torrentKey host config)) (same : left.Matches filed right)
    (redis : Context) (listing : Redis.Listing) :
    ∃ command next, duty.session host config datagram = .call command next ∧
      (left.after request).Matches filed (right.after command) ∧
      next (right.exec .sorted command).1 =
        (duty.next (.redisCommand redis request) (some (left.exec listing request).1)).session
          host config datagram := by
  cases due with
  | inserts registers padding =>
      refine ⟨datagram.insertCommand host config fun _ => 0, fun _ => .done (), ?_, ?_, rfl⟩
      · rw [session]
        rcases registers with event | event
        · rw [event]
        · rw [event]
      · rw [← Datagram.update_of_registers registers, ← Datagram.update_of_registers registers]
        exact Datagram.update_matches own counter same padding _
  | removes stopped =>
      refine ⟨datagram.removeCommand host config, fun _ => .done (), ?_, ?_, rfl⟩
      · rw [session, stopped]
      · have updated := Datagram.update_matches own counter same (fun _ => 0) fun _ => 0
        rwa [Datagram.update, Datagram.update, stopped] at updated
  | promotes completed =>
      refine ⟨datagram.promoteCommand host config, fun reply =>
        if reply.isError then .done ()
        else .call (datagram.countCommand host config) fun _ => .done (), ?_,
        same.after_rename (own _) (own _), ?_⟩
      · rw [session, completed]
      · have replied : (right.exec .sorted (datagram.promoteCommand host config)).1.isError =
            (left.exec listing (datagram.promoteCommand host config)).1.isError := by
          rw [isError_promote, isError_promote, same.isSome_eq]
        change (if _ then _ else _) = session host config datagram (if _ then _ else _)
        rw [replied]
        change _ = session host config datagram (if (!_) = true then _ else _)
        cases (left.exec listing (datagram.promoteCommand host config)).1.isError <;> rfl
  | counts =>
      refine ⟨datagram.countCommand host config, fun _ => .done (), rfl, ?_, rfl⟩
      apply same.after_of_not_filed
      intro key written
      rw [List.mem_singleton.mp written]
      exact counter

/-- A command that is due writes no other keys than the records of the peer and the
key of the torrent. -/
theorem Due.writes {duty : Duty} {request : Redis.Command}
    (due : Due host config datagram duty request) :
    ∀ key ∈ request.writes, (∃ isSeeder, key = datagram.recordKey host config isSeeder) ∨
      key = datagram.torrentKey host config := by
  intro key written
  cases due with
  | inserts registers padding | removes stopped => exact .inl ⟨_, List.mem_singleton.mp written⟩
  | promotes completed =>
      rcases List.mem_pair.mp written with same | same
      · exact .inl ⟨_, same⟩
      · exact .inl ⟨_, same⟩
  | counts => exact .inr (List.mem_singleton.mp written)

end Duty

/-! ## Announces that nothing disturbs -/

namespace Datagram

variable (host : Host) (config : BtConfig) (store : Redis.Store) (datagram : Datagram)

/-- The database lets an announce pass: it is long enough, the reply about its connection
is not an error, and its torrent is not refused. -/
def Passes : Prop :=
  datagram.action host = some .announce ∧ 20 ≤ datagram.params.buflen ∧
    (store.exec .sorted (.get (datagram.connectionKey host config))).1.isError = false ∧
    refusedBy config store (infoHashText (datagram.announce host).infoHash) = false

instance : Decidable (datagram.Passes host config store) :=
  inferInstanceAs (Decidable (_ ∧ _))

end Datagram

/-- Whether the cell with the address of the sender holds what the next operation of a
thread takes it for. -/
def Thread.readsOwn (host : Host) (siOther : SockaddrIn) (thread : Thread) : Bool :=
  match thread.running with
  | some (job, .call (.loadSockaddr _) _) =>
      decide ((job.announce host).ipv4Addr ≠ 0) || decide (siOther.sAddr = job.sender.sAddr)
  | _ => true

namespace Pool

variable (host : Host) (config : BtConfig)

/-- Announces arrive and are handled, Redis answers normally, and nothing else
happens. -/
def Undisturbed (origin : Redis.Store) (pool : Pool) : Action → Prop
  | .receive sender data =>
      (⟨.received pool.buff data, sender⟩ : Datagram).Passes host config origin
  | .step _ choice =>
      choice.delivery = .normal ∧ (choice.connect pool.nextContext).isOpened = true
  | .spawn | .take _ => True
  | .terminate | .leave | .wait _ | .edit .. => False

instance (origin : Redis.Store) (pool : Pool) (action : Action) :
    Decidable (pool.Undisturbed host config origin action) :=
  match action with
  | .receive sender data =>
      inferInstanceAs
        (Decidable ((⟨.received pool.buff data, sender⟩ : Datagram).Passes host config origin))
  | .step _ choice =>
      inferInstanceAs (Decidable
        (choice.delivery = .normal ∧ (choice.connect pool.nextContext).isOpened = true))
  | .spawn | .take _ => .isTrue trivial
  | .terminate | .leave | .wait _ | .edit .. => .isFalse id

/-- A thread reads the cell for an announce that names no address only while the cell
holds the address of the announce's own sender. -/
def ReadsOwn (pool : Pool) : Action → Prop
  | .step index _ => ∀ thread ∈ pool.threads[index]?, thread.readsOwn host pool.siOther = true
  | _ => True

instance (pool : Pool) (action : Action) : Decidable (pool.ReadsOwn host action) :=
  match action with
  | .step index _ =>
      inferInstanceAs
        (Decidable (∀ thread ∈ pool.threads[index]?, thread.readsOwn host pool.siOther = true))
  | .receive .. | .spawn | .take _ | .terminate | .leave | .wait _ | .edit .. => .isTrue trivial

/-- The jobs of a list of actions. -/
def received (pool : Pool) : List Action → List Datagram
  | [] => []
  | action :: rest =>
      pool.arriving action ++ (pool.act host config action).received rest

end Pool

/-! ## The rest of all jobs -/

/-- A job with what is left of its program and of its duties. -/
structure Task where
  job : Datagram
  program : Worker Unit
  duty : Duty

namespace Task

variable (host : Host) (config : BtConfig)

/-- A job at its beginning. -/
def initial (job : Datagram) : Task :=
  ⟨job, btRequestProcessor host config job.params, .initial host job⟩

/-- The job as a thread runs it. -/
def running (task : Task) : Datagram × Worker Unit := (task.job, task.program)

/-- The job as far as the database is concerned. -/
def thread (task : Task) :
    Program.ThreadOf Redis.Command Redis.Command.Answer Empty Unit Datagram :=
  (task.job, task.duty.session host config task.job)

/-- The job does its duties. -/
def Serves (task : Task) : Prop :=
  Duty.Serves host config task.job (some task.duty) task.program
    fun _ last => last = none ∨ last = some .nothing

variable {host config}

/-- A task whose job goes on. -/
theorem Serves.next {job : Datagram} {op : Op} {next : op.Answer → Worker Unit} {duty : Duty}
    (serves : Serves host config ⟨job, .call op next, duty⟩) {answer : op.Answer}
    (favours : Duty.favours host config job op answer = true) :
    Serves host config ⟨job, next answer, duty.next op answer⟩ := by
  have continues := serves.2 answer
  simp only [Duty.protocol, favours, if_true, Option.map_some] at continues
  exact continues

/-- A job that is done or stuck has done its duties. -/
theorem Serves.nothing {task : Task} (serves : task.Serves host config)
    (ended : ∀ op next, task.program ≠ .call op next) : task.duty = .nothing := by
  obtain ⟨job, program, duty⟩ := task
  cases program with
  | call op next => exact absurd rfl (ended op next)
  | done result | fault reason =>
      rcases serves with missing | done
      · cases missing
      · exact Option.some.inj done

end Task

/-- The keys of the records of some announces. -/
def recordsOf (host : Host) (config : BtConfig) (announces : List Datagram) (key : Bytes) : Prop :=
  ∃ datagram ∈ announces, ∃ isSeeder, key = datagram.recordKey host config isSeeder

theorem recordsOf_of_mem {host : Host} {config : BtConfig} {announces : List Datagram}
    {datagram : Datagram} (member : datagram ∈ announces) (isSeeder : Bool) :
    recordsOf host config announces (datagram.recordKey host config isSeeder) :=
  ⟨datagram, member, isSeeder, rfl⟩

/-- Names of keys that announces do not write. -/
def KeyName.IsSteady : KeyName → Prop
  | .peer .. | .torrent _ => False
  | .connection _ | .whitelist | .blacklist => True

/-- How far a pool has come with the jobs it received since its database was `origin`.
`twin` is what the database would be if all records ended in zeros. -/
structure Pool.Traces (host : Host) (config : BtConfig) (filed : Bytes → Prop)
    (origin : Redis.Store) (received : List Datagram) (tasks : List Task) (twin : Redis.Store)
    (pool : Pool) : Prop where
  store : pool.store.Matches filed twin
  steady : ∀ name : KeyName, name.IsSteady →
    pool.store.find? (name.encode host config) = origin.find? (name.encode host config)
  jobs : (tasks.map Task.running).Perm (pool.threads.filterMap Thread.running ++
    pool.queue.map fun job => (job, btRequestProcessor host config job.params))
  serves : ∀ task ∈ tasks, task.Serves host config
  known : ∀ task ∈ tasks, task.job ∈ received
  apart : (tasks.map Task.job).Pairwise fun left right => left.peer host ≠ right.peer host
  sequel : sequential Datagram.attend (tasks.map (Task.thread host config)) twin =
    sequential Datagram.attend
      ((received.map (Task.initial host config)).map (Task.thread host config)) origin

/-- Replacing an element of a list that is listed together with others. -/
theorem filterMap_set_perm_rest {α β : Type} (select : α → Option β) {list : List α}
    {index : Nat} {old : α} (found : list[index]? = some old) {item : β}
    (selects : select old = some item) (new : α) {rest others : List β}
    (perm : (item :: rest).Perm (list.filterMap select ++ others)) :
    ((select new).toList ++ rest).Perm ((list.set index new).filterMap select ++ others) := by
  have replaced := filterMap_set_perm select found new
  rw [selects] at replaced
  apply (List.perm_cons item).mp
  calc (item :: ((select new).toList ++ rest)).Perm
        ((select new).toList ++ item :: rest) := List.perm_middle.symm
    List.Perm _ ((select new).toList ++ (list.filterMap select ++ others)) := perm.append_left _
    List.Perm _ (item :: (list.set index new).filterMap select ++ others) := by
        rw [← List.append_assoc]
        exact (replaced.append_right others).symm

namespace Pool

variable {host : Host} {config : BtConfig} {filed : Bytes → Prop} {origin twin : Redis.Store}
  {received : List Datagram} {tasks : List Task} {pool : Pool}

/-! ## Nothing stands in the way -/

/-- The reply to a question about a key that announces do not write. -/
theorem Traces.reply_steady (traces : pool.Traces host config filed origin received tasks twin)
    {choice : Choice} (normal : choice.delivery = .normal) (slot : Option Context)
    (redis : Context) {request : Redis.Command} {name : KeyName} (steady : name.IsSteady)
    (about : request.subject = some (name.encode host config)) :
    (World.exec (.redisCommand redis request) (pool.world slot choice)).1 =
      some (origin.exec .sorted request).1 := by
  rw [reply_of_normal normal,
    Redis.Store.reply_of_subject about (traces.steady name steady) choice.listing]
  cases request with
  | get key | hget key field | sismember key member => rfl
  | _ => cases about

/-- While nothing disturbs, no answer stands in the way of an announce. -/
theorem Traces.favours (traces : pool.Traces host config filed origin received tasks twin)
    {slot : Option Context} {job : Datagram} {op : Op} {next : op.Answer → Worker Unit}
    {choice : Choice} (passes : job.Passes host config origin)
    (normal : choice.delivery = .normal)
    (opens : (choice.connect pool.nextContext).isOpened = true)
    (own : Thread.readsOwn host pool.siOther ⟨slot, some (job, .call op next)⟩ = true) :
    Duty.favours host config job op (World.exec op (pool.world slot choice)).1 = true := by
  obtain ⟨-, -, connected, permitted⟩ := passes
  cases op with
  | redisConnect endpoint timeout => exact opens
  | loadSockaddr address =>
      cases address
      exact own
  | redisCommand redis request =>
      cases request with
      | ping =>
          rw [reply_of_normal normal]
          rfl
      | get key =>
          by_cases other : key = job.connectionKey host config
          · subst other
            have steady : (KeyName.connection (job.request host).connectionId).IsSteady := trivial
            rw [traces.reply_steady normal slot redis steady rfl]
            simpa [Duty.favours, Conduct.confirms] using connected
          · simp [Duty.favours, other]
      | sismember key member =>
          by_cases own : key = restrictionKey config config.infoHashRestriction.listName ∧
              member = infoHashText (job.announce host).infoHash
          · obtain ⟨rfl, rfl⟩ := own
            rw [Duty.favours, Bool.or_eq_true]
            right
            rw [refusedBy] at permitted
            cases mode : config.infoHashRestriction with
            | none => rfl
            | whitelist =>
                have steady : KeyName.whitelist.IsSteady := trivial
                rw [mode] at permitted
                rw [traces.reply_steady normal slot redis steady rfl, permitted]
                rfl
            | blacklist =>
                have steady : KeyName.blacklist.IsSteady := trivial
                rw [mode] at permitted
                rw [traces.reply_steady normal slot redis steady rfl, permitted]
                rfl
          · rw [Duty.favours, Bool.or_eq_true, decide_eq_true_eq]
            exact .inl (not_and_or.mp own)
      | _ => rfl
  | _ => rfl

/-! ## One action -/

/-- The tasks are independent. -/
theorem Traces.separate (traces : pool.Traces host config filed origin received tasks twin) :
    Separate (fun datagram : Datagram => datagram.Concerns host config) Redis.Command.Counts
      (fun left right => left.peer host ≠ right.peer host)
      (tasks.map (Task.thread host config)) := by
  constructor
  · intro thread member
    obtain ⟨task, _, rfl⟩ := List.mem_map.mp member
    exact task.duty.session_confined
  · rw [List.map_map]
    exact traces.apart

/-- What is no command that writes leaves the duty and the database as they are. -/
private theorem kept_of_not_writes (duty : Duty) {op : Op}
    (writes : ¬∃ redis request, op = .redisCommand redis request ∧ ¬request.ReadOnly)
    (world : World) :
    (∀ answer, duty.next op answer = duty) ∧ (World.exec op world).2.store = world.store := by
  cases op with
  | sendto address data => exact ⟨fun _ => rfl, rfl⟩
  | redisCommand redis request =>
      have observes : (Op.redisCommand redis request).Observes := by
        by_contra other
        exact writes ⟨redis, request, rfl, other⟩
      exact ⟨Duty.next_of_observes observes duty, (World.exec_of_observes observes _).1⟩
  | _ => exact ⟨fun _ => rfl, rfl⟩

/-- One operation of a job leaves as much to do as its session says, and touches no key
that announces do not write. -/
theorem Traces.database {before after : List Task} {job : Datagram} {op : Op}
    {next : op.Answer → Worker Unit} {duty : Duty}
    (traces : pool.Traces host config filed origin received
      (before ++ ⟨job, .call op next, duty⟩ :: after) twin)
    (own : ∀ isSeeder, filed (job.recordKey host config isSeeder))
    (counter : ¬filed (job.torrentKey host config)) {choice : Choice}
    (normal : choice.delivery = .normal) (slot : Option Context) :
    ∃ twin', (World.exec op (pool.world slot choice)).2.store.Matches filed twin' ∧
      (∀ name : KeyName, name.IsSteady →
        (World.exec op (pool.world slot choice)).2.store.find? (name.encode host config) =
          pool.store.find? (name.encode host config)) ∧
      sequential Datagram.attend (before.map (Task.thread host config) ++
          (job, (duty.next op (World.exec op (pool.world slot choice)).1).session
            host config job) :: after.map (Task.thread host config)) twin' =
        sequential Datagram.attend (before.map (Task.thread host config) ++
          (job, duty.session host config job) :: after.map (Task.thread host config)) twin := by
  have serves := traces.serves ⟨job, .call op next, duty⟩ (by simp)
  by_cases writes : ∃ redis request, op = .redisCommand redis request ∧ ¬request.ReadOnly
  · obtain ⟨redis, request, rfl, writes⟩ := writes
    have due := serves.1 duty rfl redis request rfl writes
    obtain ⟨command, rest, session, matched, continues⟩ :=
      due.session_eq own counter traces.store redis choice.listing
    refine ⟨twin.after command, ?_, fun name steady => ?_, ?_⟩
    · rw [store_of_normal normal]
      exact matched
    · rw [store_of_normal normal]
      apply Redis.Store.find?_after_of_not_mem_writes
      intro written
      rcases due.writes _ written with ⟨isSeeder, same⟩ | same
      · rw [(KeyName.encode_inj host config).mp same] at steady
        exact steady
      · rw [(KeyName.encode_inj host config).mp same] at steady
        exact steady
    · have separate := traces.separate
      rw [List.map_append, List.map_cons, Task.thread, session] at separate
      rw [reply_of_normal normal, ← continues, session]
      exact ((Advances.step _ _ job command rest twin).sequential_eq
        (fun _ _ apart => concerns_commutes apart) separate).2
  · obtain ⟨idle, kept⟩ := kept_of_not_writes duty writes (pool.world slot choice)
    refine ⟨twin, ?_, fun name steady => ?_, ?_⟩
    · rw [kept]
      exact traces.store
    · rw [kept]
      rfl
    · rw [idle]

/-- The job of a thread is one of the tasks. -/
theorem Traces.split (traces : pool.Traces host config filed origin received tasks twin)
    {index : Nat} {slot : Option Context} {job : Datagram} {program : Worker Unit}
    (runs : pool.threads[index]? = some ⟨slot, some (job, program)⟩) :
    ∃ before duty after, tasks = before ++ ⟨job, program, duty⟩ :: after := by
  have member : (job, program) ∈ tasks.map Task.running :=
    traces.jobs.mem_iff.mpr (List.mem_append_left _
      (List.mem_filterMap.mpr ⟨_, List.mem_of_getElem? runs, rfl⟩))
  obtain ⟨⟨_, _, duty⟩, pending, same⟩ := List.mem_map.mp member
  cases same
  obtain ⟨before, after, split⟩ := List.append_of_mem pending
  exact ⟨before, duty, after, split⟩

/-- A thread performs an operation. -/
theorem Traces.perform (traces : pool.Traces host config filed origin received tasks twin)
    (own : ∀ job ∈ received, ∀ isSeeder, filed (job.recordKey host config isSeeder))
    (counter : ∀ job : Datagram, ¬filed (job.torrentKey host config)) {index : Nat}
    {slot : Option Context} {job : Datagram} {op : Op} {next : op.Answer → Worker Unit}
    {choice : Choice} (calls : pool.threads[index]? = some ⟨slot, some (job, .call op next)⟩)
    (passes : ∀ job ∈ received, job.Passes host config origin)
    (normal : choice.delivery = .normal)
    (opens : (choice.connect pool.nextContext).isOpened = true)
    (reads : Thread.readsOwn host pool.siOther ⟨slot, some (job, .call op next)⟩ = true) :
    ∃ tasks twin, (pool.perform index slot job op next choice).Traces host config filed origin
      received tasks twin := by
  obtain ⟨before, duty, after, rfl⟩ := traces.split calls
  have known : job ∈ received := traces.known ⟨job, .call op next, duty⟩ (by simp)
  have favours := traces.favours (passes job known) normal opens reads
  obtain ⟨twin', matched, steady, sequel⟩ :=
    traces.database (own job known) (counter job) normal slot
  have others : (before ++ after).Sublist (before ++ ⟨job, .call op next, duty⟩ :: after) :=
    (List.Sublist.refl _).append (List.sublist_cons_self ..)
  refine ⟨before ++ ⟨job, next (World.exec op (pool.world slot choice)).1,
    duty.next op (World.exec op (pool.world slot choice)).1⟩ :: after, twin', ?_⟩
  constructor
  · exact matched
  · exact fun name fixed => (steady name fixed).trans (traces.steady name fixed)
  · have jobs := traces.jobs
    rw [List.map_append, List.map_cons] at jobs ⊢
    exact List.perm_middle.trans (filterMap_set_perm_rest Thread.running calls rfl
      ⟨(World.exec op (pool.world slot choice)).2.slot,
        some (job, next (World.exec op (pool.world slot choice)).1)⟩
      (List.perm_middle.symm.trans jobs))
  · intro task member
    rcases List.mem_cons.mp (List.perm_middle.mem_iff.mp member) with rfl | member
    · exact (traces.serves ⟨job, .call op next, duty⟩ (by simp)).next favours
    · exact traces.serves task (others.subset member)
  · intro task member
    rcases List.mem_cons.mp (List.perm_middle.mem_iff.mp member) with rfl | member
    · exact known
    · exact traces.known task (others.subset member)
  · have apart := traces.apart
    rw [List.map_append, List.map_cons] at apart ⊢
    exact apart
  · rw [← traces.sequel, List.map_append, List.map_append, List.map_cons, List.map_cons]
    exact sequel

/-- A job that ends has nothing left to do. -/
theorem Traces.finish (traces : pool.Traces host config filed origin received tasks twin)
    {index : Nat} {slot : Option Context} {job : Datagram} {result : Unit}
    (ends : pool.threads[index]? = some ⟨slot, some (job, .done result)⟩) :
    ∃ tasks, Traces host config filed origin received tasks twin
      { pool with threads := pool.threads.set index ⟨slot, none⟩ } := by
  obtain ⟨before, duty, after, rfl⟩ := traces.split ends
  have nothing : duty = .nothing :=
    (traces.serves ⟨job, .done result, duty⟩ (by simp)).nothing
      fun _ _ runs => by cases runs
  subst nothing
  have others : (before ++ after).Sublist (before ++ ⟨job, .done result, .nothing⟩ :: after) :=
    (List.Sublist.refl _).append (List.sublist_cons_self ..)
  refine ⟨before ++ after, traces.store, traces.steady, ?_,
    fun task member => traces.serves task (others.subset member),
    fun task member => traces.known task (others.subset member), ?_, ?_⟩
  · have jobs := traces.jobs
    rw [List.map_append, List.map_cons] at jobs
    rw [List.map_append]
    exact filterMap_set_perm_rest Thread.running ends rfl ⟨slot, none⟩
      (List.perm_middle.symm.trans jobs)
  · exact traces.apart.sublist (others.map _)
  · rw [← traces.sequel]
    simp only [sequential, List.map_append, List.map_cons, List.foldl_append, List.foldl_cons]
    rfl

/-- A job is taken from the queue. -/
theorem Traces.take (traces : pool.Traces host config filed origin received tasks twin)
    {index : Nat} {slot : Option Context} {job : Datagram} {rest : List Datagram}
    (idle : pool.threads[index]? = some ⟨slot, none⟩) (queued : pool.queue = job :: rest) :
    Traces host config filed origin received tasks twin
      { pool with
        queue := rest
        threads := pool.threads.set index
          ⟨slot, some (job, btRequestProcessor host config job.params)⟩ } := by
  refine ⟨traces.store, traces.steady, ?_, traces.serves, traces.known, traces.apart, traces.sequel⟩
  have started := filterMap_set_perm Thread.running idle
    ⟨slot, some (job, btRequestProcessor host config job.params)⟩
  have jobs := traces.jobs
  rw [queued, List.map_cons] at jobs
  exact jobs.trans (List.perm_middle.trans (started.symm.append_right _))

/-- A datagram is received. -/
theorem Traces.receive (traces : pool.Traces host config filed origin received tasks twin)
    {sender : SockaddrIn} {data : Bytes} {job : Datagram}
    (passes : job.Passes host config origin)
    (apart : (received ++ [job]).Pairwise fun left right => left.peer host ≠ right.peer host) :
    Traces host config filed origin (received ++ [job]) (tasks ++ [.initial host config job]) twin
      { pool with
        siOther := sender
        buff := pool.buff.recvfrom data
        queue := pool.queue ++ [job] } := by
  refine ⟨traces.store, traces.steady, ?_, fun task member => ?_, fun task member => ?_, ?_, ?_⟩
  · rw [List.map_append, List.map_append, ← List.append_assoc]
    exact traces.jobs.append_right _
  · rcases List.mem_append.mp member with member | member
    · exact traces.serves task member
    · rw [List.mem_singleton.mp member]
      exact Duty.btRequestProcessor_serves passes.1 passes.2.1
  · rcases List.mem_append.mp member with member | member
    · exact List.mem_append_left _ (traces.known task member)
    · rw [List.mem_singleton.mp member]
      exact List.mem_append_right _ (List.mem_singleton_self _)
  · rw [List.map_append, List.map_singleton, List.pairwise_append]
    refine ⟨traces.apart, List.pairwise_singleton .., ?_⟩
    rintro _ member _ new
    rw [List.mem_singleton.mp new]
    obtain ⟨task, inside, rfl⟩ := List.mem_map.mp member
    exact (List.pairwise_append.mp apart).2.2 _ (traces.known task inside) _
      (List.mem_singleton_self _)
  · have sequel := traces.sequel
    simp only [sequential, List.map_append, List.map_singleton, List.foldl_append] at sequel ⊢
    rw [sequel]

/-- Every action that does not disturb. -/
theorem Traces.act (traces : pool.Traces host config filed origin received tasks twin)
    {action : Action} (possible : pool.phase.allows action = true)
    (undisturbed : pool.Undisturbed host config origin action)
    (reads : pool.ReadsOwn host action)
    (passes : ∀ job ∈ received, job.Passes host config origin)
    (own : ∀ job ∈ received, ∀ isSeeder, filed (job.recordKey host config isSeeder))
    (counter : ∀ job : Datagram, ¬filed (job.torrentKey host config))
    (apart : (received ++ pool.arriving action).Pairwise
      fun left right => left.peer host ≠ right.peer host) :
    ∃ tasks twin, (pool.act host config action).Traces host config filed origin
      (received ++ pool.arriving action) tasks twin := by
  by_cases receives : ∃ sender data, action = .receive sender data
  · obtain ⟨sender, data, rfl⟩ := receives
    rw [Pool.act, if_pos possible]
    exact ⟨_, twin, traces.receive undisturbed apart⟩
  · have quiet : pool.arriving action = [] := by
      cases action with
      | receive sender data => exact absurd ⟨sender, data, rfl⟩ receives
      | _ => rfl
    rw [quiet, List.append_nil]
    have changes := pool.changes_act host config action
    generalize pool.act host config action = after at changes ⊢
    cases changes with
    | receive sender data serving => exact absurd ⟨sender, data, rfl⟩ receives
    | wait seconds | edit whitelist members => exact undisturbed.elim
    | turns action phase => exact ⟨tasks, twin, { traces with }⟩
    | spawn serving =>
        refine ⟨tasks, twin, { traces with jobs := ?_ }⟩
        rw [List.filterMap_append]
        exact traces.jobs.trans (.of_eq (by simp))
    | take serving idle queued => exact ⟨tasks, twin, traces.take idle queued⟩
    | finish choice ends =>
        obtain ⟨tasks, traces⟩ := traces.finish ends
        exact ⟨tasks, twin, traces⟩
    | perform choice calls =>
        exact traces.perform own counter calls passes undisturbed.1 undisturbed.2
          (reads _ (Option.mem_def.mpr calls))

/-- What arrives undisturbed passes. -/
theorem Undisturbed.arriving {action : Action}
    (undisturbed : pool.Undisturbed host config origin action) :
    ∀ job ∈ pool.arriving action, job.Passes host config origin := by
  intro job member
  cases action with
  | receive sender data =>
      rw [List.mem_singleton.mp member]
      exact undisturbed
  | _ => cases member

/-- A whole run. -/
theorem Traces.run (traces : pool.Traces host config filed origin received tasks twin)
    {actions schedule : List Action} (possible : pool.possible host config actions = true)
    (undisturbed : Permitted host config (fun _ pool => pool.Undisturbed host config origin)
      schedule pool actions)
    (reads : Permitted host config (fun _ pool => pool.ReadsOwn host) schedule pool actions)
    (passes : ∀ job ∈ received, job.Passes host config origin)
    (own : ∀ job ∈ received ++ pool.received host config actions, ∀ isSeeder,
      filed (job.recordKey host config isSeeder))
    (counter : ∀ job : Datagram, ¬filed (job.torrentKey host config))
    (apart : (received ++ pool.received host config actions).Pairwise
      fun left right => left.peer host ≠ right.peer host) :
    ∃ tasks twin, (pool.run host config actions).Traces host config filed origin
      (received ++ pool.received host config actions) tasks twin := by
  induction actions generalizing pool schedule received tasks twin with
  | nil =>
      rw [Pool.received, List.append_nil]
      exact ⟨tasks, twin, traces⟩
  | cons action rest ih =>
      obtain ⟨now, later⟩ := Bool.and_eq_true_iff.mp possible
      rw [Pool.received, ← List.append_assoc] at own apart ⊢
      obtain ⟨tasks, twin, traces⟩ := traces.act now undisturbed.1 reads.1 passes
        (fun job member => own job (List.mem_append_left _ (List.mem_append_left _ member)))
        counter (List.pairwise_append.mp apart).1
      refine ih traces later undisturbed.2 reads.2 (fun job member => ?_) own apart
      rcases List.mem_append.mp member with member | member
      · exact passes job member
      · exact undisturbed.1.arriving job member

/-- The tasks of a pool without jobs. -/
theorem Traces.vacant (filed : Bytes → Prop) (vacant : pool.queue ++ pool.running = []) :
    pool.Traces host config filed pool.store [] [] pool.store := by
  obtain ⟨empty, idle⟩ := List.append_eq_nil_iff.mp vacant
  refine ⟨.refl _ _, fun _ _ => rfl, ?_, nofun, nofun, .nil, rfl⟩
  have none : pool.threads.filterMap Thread.running = [] := by
    rw [running, ← List.map_filterMap, List.map_eq_nil_iff] at idle
    exact idle
  rw [empty, none]
  exact .nil

/-- When all jobs are through, nothing is left to do. -/
theorem Traces.sequential_eq (traces : pool.Traces host config filed origin received tasks twin)
    (empty : pool.queue = []) (settled : ∀ thread ∈ pool.threads, thread.Settled) :
    twin = received.foldl (fun store datagram =>
      datagram.update host config (fun _ => 0) store) origin := by
  have finished : Finished (tasks.map (Task.thread host config)) := by
    intro thread member
    obtain ⟨task, pending, rfl⟩ := List.mem_map.mp member
    have runs := traces.jobs.mem_iff.mp (List.mem_map_of_mem pending)
    rw [empty, List.map_nil, List.append_nil] at runs
    obtain ⟨thread, inside, running⟩ := List.mem_filterMap.mp runs
    have nothing : task.duty = .nothing := by
      refine (traces.serves task pending).nothing fun op next calls => ?_
      rcases settled thread inside with idle | ⟨job, reason, stuck⟩
      · rw [idle] at running
        cases running
      · rw [stuck, Task.running, calls] at running
        cases running
    exact ⟨(), by rw [Task.thread, nothing, Duty.session]⟩
  have sequel := traces.sequel
  rw [Program.sequential_of_finished _ finished] at sequel
  rw [sequel]
  simp only [sequential, List.foldl_map, Task.thread, Task.initial, Duty.run_session]

end Pool

/-! ## Any order, any interleaving -/

section Orders

variable {host : Host} {config : BtConfig} {announces received : List Datagram}

/-- What an announce does depends on what it asks for and on who sent it. -/
theorem Datagram.update_congr {left right : Datagram}
    (same : left.announcement host = right.announcement host) (padding : Octets 6) :
    left.update host config padding = right.update host config padding := by
  obtain ⟨announce, sender⟩ := Prod.mk.inj same
  funext store
  simp only [Datagram.update, Datagram.event, Datagram.removeCommand, Datagram.promoteCommand,
    Datagram.countCommand, Datagram.insertCommand, Datagram.record, Datagram.recordFrom,
    Datagram.recordKey, Datagram.peerKeyName, Datagram.torrentKey, Datagram.isSeeder, announce,
    sender]
  rfl

/-- The same announces of different peers, in another order. -/
theorem foldl_update_perm
    (distinct : announces.Pairwise fun left right => left.peer host ≠ right.peer host)
    (order : (received.map (Datagram.announcement host)).Perm
      (announces.map (Datagram.announcement host))) (store : Redis.Store) :
    received.foldl (fun store datagram => datagram.update host config (fun _ => 0) store) store =
      announces.foldl (fun store datagram => datagram.update host config (fun _ => 0) store)
        store := by
  have symmetric : Std.Symm fun left right : Datagram => left.peer host ≠ right.peer host :=
    ⟨fun _ _ different => different.symm⟩
  obtain ⟨arranged, same, perm⟩ : ∃ arranged : List Datagram,
      received.map (Datagram.announcement host) = arranged.map (Datagram.announcement host) ∧
        arranged.Perm announces := by
    have composed := congrFun (congrFun (List.eq_map_comp_perm (Datagram.announcement host))
      (received.map (Datagram.announcement host))) announces
    exact composed.mpr order
  have separate : Separate (fun datagram : Datagram => datagram.Concerns host config)
      Redis.Command.Counts (fun left right => left.peer host ≠ right.peer host)
      ((announces.map (Task.initial host config)).map (Task.thread host config)) := by
    constructor
    · intro thread member
      obtain ⟨task, _, rfl⟩ := List.mem_map.mp member
      exact task.duty.session_confined
    · rw [List.map_map, List.map_map]
      exact List.pairwise_map.mpr distinct
  have permuted := separate.sequential_perm (fun _ _ apart => concerns_commutes apart)
    ((perm.symm.map (Task.initial host config)).map (Task.thread host config)) store
  simp only [sequential, List.foldl_map, Task.thread, Task.initial, Duty.run_session] at permuted
  rw [permuted]
  clear permuted separate perm order
  induction received generalizing arranged store with
  | nil =>
      rw [List.map_eq_nil_iff.mp same.symm]
  | cons head tail ih =>
      cases arranged with
      | nil => cases same
      | cons other others =>
          obtain ⟨first, rest⟩ := List.cons.inj same
          rw [List.foldl_cons, List.foldl_cons, Datagram.update_congr first]
          exact ih _ _ rest

/-- Databases that match go on to match, whatever `malloc` leaves behind the records. -/
theorem foldl_update_matches (padding other : Octets 6) {filed : Bytes → Prop}
    {left right : Redis.Store}
    (own : ∀ datagram ∈ announces, ∀ isSeeder, filed (datagram.recordKey host config isSeeder))
    (counter : ∀ datagram : Datagram, ¬filed (datagram.torrentKey host config))
    (same : left.Matches filed right) :
    (announces.foldl (fun store datagram => datagram.update host config padding store)
        left).Matches filed
      (announces.foldl (fun store datagram => datagram.update host config other store) right) := by
  induction announces generalizing left right with
  | nil => exact same
  | cons head tail ih =>
      exact ih (fun datagram member => own datagram (List.mem_cons_of_mem _ member))
        (Datagram.update_matches (own head (List.mem_cons_self ..)) (counter head) same ..)

variable (host config) in
/-- A pool without jobs receives announces in some order and handles them to the end,
and nothing disturbs it. -/
structure Pool.Handles (announces : List Datagram) (pool : Pool) (actions : List Action) :
    Prop where
  vacant : pool.queue ++ pool.running = []
  possible : pool.possible host config actions = true
  undisturbed : Permitted host config
    (fun _ other => other.Undisturbed host config pool.store) [] pool actions
  order : ((pool.received host config actions).map (Datagram.announcement host)).Perm
    (announces.map (Datagram.announcement host))
  empty : (pool.run host config actions).queue = []
  settled : ∀ thread ∈ (pool.run host config actions).threads, thread.Settled

/-- However announces of different peers arrive and are scheduled, once all of them are
through the database is the one that handling them one after the other leads to, up to
the bytes behind the members of their records, as long as no thread takes the address
of another sender for its own. -/
theorem Pool.announces_independent {pool : Pool} {actions : List Action}
    (handles : pool.Handles host config announces actions)
    (distinct : announces.Pairwise fun left right => left.peer host ≠ right.peer host)
    (reads : Permitted host config (fun _ other => other.ReadsOwn host) [] pool actions)
    (padding : Octets 6) :
    (pool.run host config actions).store.Matches (recordsOf host config announces)
      (announces.foldl (fun store datagram => datagram.update host config padding store)
        pool.store) := by
  have counter (job : Datagram) : ¬recordsOf host config announces (job.torrentKey host config) := by
    rintro ⟨other, _, isSeeder, same⟩
    exact torrentKey_ne job other isSeeder same
  have own : ∀ job ∈ pool.received host config actions, ∀ isSeeder,
      recordsOf host config announces (job.recordKey host config isSeeder) := by
    intro job member isSeeder
    obtain ⟨announce, inside, same⟩ := List.mem_map.mp
      (handles.order.mem_iff.mp (List.mem_map_of_mem member))
    obtain ⟨decoded, -⟩ := Prod.mk.inj same
    have filed : recordsOf host config announces (announce.recordKey host config isSeeder) :=
      recordsOf_of_mem inside isSeeder
    rw [Datagram.recordKey, Datagram.peerKeyName, decoded] at filed
    exact filed
  have apart : (pool.received host config actions).Pairwise
      fun left right => left.peer host ≠ right.peer host := by
    have spread : (announces.map (Datagram.announcement host)).Pairwise fun left right =>
        (left.1.infoHash, left.1.peerId) ≠ (right.1.infoHash, right.1.peerId) := by
      rw [List.pairwise_map]
      exact distinct
    have permuted := handles.order.symm.pairwise spread fun different => different.symm
    rw [List.pairwise_map] at permuted
    exact permuted
  obtain ⟨tasks, twin, traces⟩ :=
    (Traces.vacant (recordsOf host config announces) handles.vacant).run handles.possible
      handles.undisturbed reads (fun _ none => absurd none List.not_mem_nil) own counter apart
  have matched := traces.store
  rw [traces.sequential_eq handles.empty handles.settled, List.nil_append,
    foldl_update_perm distinct handles.order] at matched
  exact matched.trans (foldl_update_matches _ _
    (fun _ member isSeeder => recordsOf_of_mem member isSeeder) counter (.refl ..))

end Orders

/-- Announces are compared as their datagrams. -/
instance : DecidableEq BtAnnounceReq := fun _ _ =>
  decidable_of_iff _ BtAnnounceReq.datagram_injective.eq_iff

namespace Pool

/-- Two peers of one torrent that name no address. -/
def firstPeer : Datagram :=
  ⟨.received (fun _ => 0) (BtAnnounceReq.sample 5 2).datagram, ⟨1, 1⟩⟩
def secondPeer : Datagram :=
  ⟨.received (fun _ => 0) { BtAnnounceReq.sample 0 2 with peerId := fun _ => 9 }.datagram, ⟨2, 2⟩⟩
def twoPeers : List Datagram := [firstPeer, secondPeer]

/-- Their datagrams arrive. -/
def firstArrives : Action := .receive ⟨1, 1⟩ (BtAnnounceReq.sample 5 2).datagram
def secondArrives : Action :=
  .receive ⟨2, 2⟩ { BtAnnounceReq.sample 0 2 with peerId := fun _ => 9 }.datagram

/-- The second announce arrives when the first one has read the address of its sender,
and both threads go on in turn. -/
def overlapping : List Action :=
  [.spawn, .spawn, firstArrives, .take 0] ++ List.replicate 6 (.step 0 .calm) ++
    [secondArrives, .take 1] ++ (List.replicate 20 [.step 1 .calm, .step 0 .calm]).flatten

/-- The second announce is handled first. -/
def backwards : List Action :=
  [.spawn, secondArrives, .take 0] ++ List.replicate 20 (.step 0 .calm) ++
    [firstArrives, .take 0] ++ List.replicate 20 (.step 0 .calm)

/-- Both announces arrive before one of them is handled. -/
def together : List Action :=
  [.spawn, firstArrives, secondArrives, .take 0] ++ List.replicate 20 (.step 0 .calm) ++
    [.take 0] ++ List.replicate 20 (.step 0 .calm)

theorem twoPeers_distinct :
    twoPeers.Pairwise fun left right => left.peer .little ≠ right.peer .little := by
  rw [twoPeers, List.pairwise_pair]
  intro same
  exact absurd (congrFun (congrArg Prod.snd same) 0) (by decide +kernel)

/-- A run that ends with all threads idle. -/
theorem Handles.of_idle {host : Host} {config : BtConfig} {announces : List Datagram}
    {pool : Pool} {actions : List Action} (vacant : pool.queue ++ pool.running = [])
    (run : pool.possible host config actions = true ∧
      Permitted host config (fun _ other => other.Undisturbed host config pool.store) [] pool
        actions ∧
      ((pool.received host config actions).map (Datagram.announcement host)).Perm
        (announces.map (Datagram.announcement host)) ∧
      (pool.run host config actions).queue = [] ∧
      (pool.run host config actions).threads.all (fun thread => thread.running.isNone) = true) :
    pool.Handles host config announces actions := by
  obtain ⟨possible, undisturbed, order, empty, idle⟩ := run
  refine ⟨vacant, possible, undisturbed, order, empty, fun thread member => .inl ?_⟩
  exact Option.isNone_iff_eq_none.mp (List.all_eq_true.mp idle thread member)

theorem overlapping_handles : start.Handles .little .shipped twoPeers overlapping :=
  .of_idle rfl (by decide +kernel)

theorem backwards_handles : start.Handles .little .shipped twoPeers backwards :=
  .of_idle rfl (by decide +kernel)

theorem together_handles : start.Handles .little .shipped twoPeers together :=
  .of_idle rfl (by decide +kernel)

/-- Two peers of one torrent, in either order, and with their operations interleaved. -/
theorem announces_independent_overlapping :
    (start.run .little .shipped overlapping).store.Matches (recordsOf .little .shipped twoPeers)
      (start.run .little .shipped backwards).store :=
  (announces_independent overlapping_handles twoPeers_distinct (by decide +kernel)
    fun _ => 0).trans (announces_independent backwards_handles twoPeers_distinct
      (by decide +kernel) fun _ => 0).symm

/-- If both arrive before one of them is handled, the first peer is registered with the
address of the second one. -/
theorem not_announces_independent :
    start.Handles .little .shipped twoPeers together ∧
      start.Handles .little .shipped twoPeers backwards ∧
      (twoPeers.Pairwise fun left right => left.peer .little ≠ right.peer .little) ∧
      ¬(start.run .little .shipped together).store.Matches (recordsOf .little .shipped twoPeers)
        (start.run .little .shipped backwards).store := by
  refine ⟨together_handles, backwards_handles, twoPeers_distinct, ?_⟩
  intro same
  have filed : recordsOf .little .shipped twoPeers (firstPeer.recordKey .little .shipped false) :=
    recordsOf_of_mem (List.mem_cons_self ..) false
  have addresses := congrArg (recordedAddr .little) (same.records _ filed)
  exact absurd addresses (by decide +kernel)

end Pool

end BtTracker
