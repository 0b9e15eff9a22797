import BtTracker.Correctness.Threads
import BtTracker.Correctness.Wire
import Mathlib.Data.Fintype.Basic

/-!
# The counter of downloads

A completed download is recorded with two commands: a `RENAME` that turns the
leecher into a seeder and, if that succeeds, a `HINCRBY` on the counter of the
torrent.  Other threads may do anything in between.  What holds all the time is
a balance: the increments made plus those owed are the promotions confirmed.
-/

namespace BtTracker

open BtTracker.Foundation

variable (host : Host) (config : BtConfig)

/-! ## What is counted -/

namespace Performed

/-- The command of the operation, and whether the reply confirms it. -/
def command? : Performed → Option (Redis.Command × Bool)
  | ⟨_, .redisCommand _ request, reply, _⟩ => some (request, Conduct.confirms reply)
  | _ => none

/-- A `RENAME` of the job's leecher to a seeder that succeeded. -/
def promotes (performed : Performed) : Bool :=
  decide (performed.command? = some (performed.job.promoteCommand host config, true))

/-- A `HINCRBY` of the counter of the job's torrent. -/
def increments (performed : Performed) : Bool :=
  match performed.command? with
  | some (request, _) => decide (request = performed.job.countCommand host config)
  | none => false

/-- A `SETEX` that filed the peer of an announce with something left under the
key of a leecher. -/
def insertsLeecher (performed : Performed) : Bool :=
  match performed.command? with
  | some (.setex key _ _, true) =>
      decide (key = performed.job.recordKey host config false) &&
        decide (performed.job.Registers host) &&
        decide ((performed.job.announce host).left ≠ 0)
  | _ => false

end Performed

namespace Datagram

/-- The datagram is about a torrent. -/
def isFor (infoHash : Octets 20) (datagram : Datagram) : Bool :=
  decide ((datagram.announce host).infoHash = infoHash)

/-- The datagram is about a peer of a torrent. -/
def isFrom (infoHash peerId : Octets 20) (datagram : Datagram) : Bool :=
  datagram.isFor host infoHash && decide ((datagram.announce host).peerId = peerId)

end Datagram

/-- The next operation of a program is the increment of a counter. -/
def Worker.counts : Worker Unit → Bool
  | .call (.redisCommand _ (.hincrby _ _ _)) _ => true
  | _ => false

/-- The thread runs a job of the given kind and is between a promotion and its
increment. -/
def Thread.owes (kind : Datagram → Bool) (thread : Thread) : Bool :=
  match thread.running with
  | some (job, program) => kind job && Worker.counts program
  | none => false

namespace Pool

variable (pool : Pool) (kind : Datagram → Bool)

/-- Promotions confirmed so far for jobs of a kind. -/
def promotions : Nat :=
  pool.log.countP fun performed => kind performed.job && performed.promotes host config

/-- Increments made so far for jobs of a kind. -/
def increments : Nat :=
  pool.log.countP fun performed => kind performed.job && performed.increments host config

/-- Leechers filed so far by jobs of a kind. -/
def insertions : Nat :=
  pool.log.countP fun performed => kind performed.job && performed.insertsLeecher host config

/-- Increments still owed for jobs of a kind. -/
def owed : Nat := pool.threads.countP (Thread.owes kind)

end Pool

/-! ## The balance -/

variable {host config}

/-- A job is about to increment a counter exactly if it owes it. -/
theorem Behaves.counts_eq {job : Datagram} {conduct : Conduct} {program : Worker Unit}
    (behaves : Behaves host config job conduct program) :
    Worker.counts program = conduct.owes := by
  cases program with
  | done result => exact Eq.symm behaves
  | fault reason => exact Eq.symm behaves
  | call op next =>
      have permitted : conduct.permits host config job op := behaves.1
      cases op with
      | redisCommand redis request =>
          cases owes : conduct.owes with
          | true =>
              simp only [Conduct.permits, owes, if_true] at permitted
              rw [permitted.2]
              rfl
          | false =>
              simp only [Conduct.permits, owes, Bool.false_eq_true, if_false] at permitted
              cases request with
              | hincrby key field increment => exact permitted.elim
              | _ => rfl
      | sendto address data | loadSockaddr address => exact permitted.1.symm
      | _ => exact Eq.symm permitted

/-- One operation: what it adds to the increments and to what is owed, it adds to
the promotions. -/
theorem Conduct.balance {job : Datagram} {conduct : Conduct} {op : Op}
    (permitted : conduct.permits host config job op) (answer : op.Answer)
    (sent : List (SockaddrIn × Block)) :
    (Performed.increments host config ⟨job, op, answer, sent⟩).toNat +
        (conduct.next op answer).owes.toNat =
      (Performed.promotes host config ⟨job, op, answer, sent⟩).toNat + conduct.owes.toNat := by
  cases op with
  | redisCommand redis request =>
      cases owes : conduct.owes with
      | true =>
          simp only [permits, owes, if_true] at permitted
          rw [permitted.2]
          simp [Performed.increments, Performed.promotes, Performed.command?, next,
            Datagram.countCommand, Datagram.promoteCommand]
      | false =>
          simp only [permits, owes, Bool.false_eq_true, if_false] at permitted
          cases request with
          | hincrby key field increment => exact permitted.elim
          | rename source target =>
              obtain ⟨_, _, rfl, rfl⟩ := permitted
              simp [Performed.increments, Performed.promotes, Performed.command?, next,
                Datagram.countCommand, Datagram.promoteCommand]
          | _ =>
              simp [Performed.increments, Performed.promotes, Performed.command?, next,
                Datagram.countCommand, Datagram.promoteCommand, owes]
  | sendto address data | loadSockaddr address =>
      simp [Performed.increments, Performed.promotes, Performed.command?, next, permitted.1]
  | privateGet | privateReplace redis | redisConnect endpoint timeout | redisFree redis
  | rand | malloc =>
      have settled : conduct.owes = false := permitted
      simp [Performed.increments, Performed.promotes, Performed.command?, next, settled]

namespace Pool

variable {pool after : Pool} {action : Action}

/-- Every increment is preceded by a promotion of the same job, and every
promotion is followed by an increment or still owes it. -/
def Balanced (host : Host) (config : BtConfig) (pool : Pool) : Prop :=
  ∀ kind, pool.increments host config kind + pool.owed kind = pool.promotions host config kind

theorem Balanced.changes (changes : pool.Changes host config action after)
    (conforms : pool.Conforms host config fun _ _ => True)
    (balanced : pool.Balanced host config) : after.Balanced host config := by
  intro kind
  have before := balanced kind
  cases changes with
  | receive sender data serving | wait seconds | edit whitelist members | turns action phase =>
      exact before
  | spawn =>
      simp only [increments, owed, promotions, List.countP_append, List.countP_cons,
        List.countP_nil, Thread.owes] at before ⊢
      exact before
  | take serving idle queued =>
      rename_i index slot job rest
      have quiet : Worker.counts (btRequestProcessor host config job.params) = false :=
        btRequestProcessor_behaves.counts_eq
      have same := countP_set_add (Thread.owes kind) idle
        ⟨slot, some (job, btRequestProcessor host config job.params)⟩
      simp only [increments, owed, promotions, Thread.owes, quiet, Bool.and_false] at before same ⊢
      omega
  | finish choice ends =>
      rename_i index slot job result
      have same := countP_set_add (Thread.owes kind) ends ⟨slot, none⟩
      simp only [increments, owed, promotions, Thread.owes, Worker.counts, Bool.and_false]
        at before same ⊢
      omega
  | perform choice calls =>
      rename_i index slot job op next
      obtain ⟨conduct, follows, -⟩ := conforms.behaves calls
      have step := Conduct.balance follows.1 (World.exec op (pool.world slot choice)).1
        (World.exec op (pool.world slot choice)).2.sent
      have running := follows.counts_eq
      have continues : Worker.counts (next (World.exec op (pool.world slot choice)).1) =
          (conduct.next op (World.exec op (pool.world slot choice)).1).owes :=
        Behaves.counts_eq (follows.2 _)
      have threads := countP_set_add (Thread.owes kind) calls
        ⟨(World.exec op (pool.world slot choice)).2.slot,
          some (job, next (World.exec op (pool.world slot choice)).1)⟩
      simp only [Thread.owes, running, continues] at threads
      simp only [increments, owed, promotions, Pool.perform, countP_cons_add] at before ⊢
      cases ofKind : kind job with
      | false =>
          simp only [ofKind, Bool.false_and, Bool.toNat_false] at threads ⊢
          omega
      | true =>
          simp only [ofKind, Bool.true_and] at threads ⊢
          omega

end Pool

/-! ## Who writes what -/

namespace Conduct

variable {job : Datagram} {conduct : Conduct} {redis : Context} {request : Redis.Command}
  {infoHash peerId : Octets 20}

/-- The key of a leecher is written by the jobs of that peer only. -/
theorem writes_leecher
    (permitted : conduct.permits host config job (.redisCommand redis request))
    (member : (KeyName.peer infoHash false peerId).encode host config ∈ request.writes) :
    job.isFrom host infoHash peerId = true ∧
      ((∃ seconds value, request = .setex (job.recordKey host config false) seconds value ∧
          job.Registers host ∧ (job.announce host).left ≠ 0) ∨
        request = .del (job.recordKey host config false) ∨
        request = job.promoteCommand host config) := by
  generalize named : KeyName.peer infoHash false peerId = name at member
  cases permitted.writes member with
  | connection connectionId seconds value | counts => cases named
  | inserts registers seconds value =>
      injection named with hash role peer
      refine ⟨by simp [Datagram.isFrom, Datagram.isFor, hash, peer], .inl ?_⟩
      refine ⟨seconds, value, by rw [role], registers, ?_⟩
      simpa [Datagram.isSeeder] using role
  | removes =>
      injection named with hash role peer
      exact ⟨by simp [Datagram.isFrom, Datagram.isFor, hash, peer], .inr (.inl (by rw [role]))⟩
  | promotes isSeeder =>
      injection named with hash role peer
      exact ⟨by simp [Datagram.isFrom, Datagram.isFor, hash, peer], .inr (.inr rfl)⟩

end Conduct

/-! ## The counter and the leechers -/

namespace Pool

variable {pool after : Pool} {action : Action}

/-- Every command of a thread is answered normally. -/
def Answered (action : Action) : Prop :=
  ∀ index choice, action = .step index choice → choice.delivery = .normal

/-- Each counter holds the number of increments made for its torrent, as long as
they can be counted at all. -/
def Counted (host : Host) (config : BtConfig) (pool : Pool) : Prop :=
  ∀ infoHash, pool.promotions host config (Datagram.isFor host infoHash) < 2 ^ 63 →
    pool.store.HoldsCount ((KeyName.torrent infoHash).encode host config) (ascii "downs")
      (pool.increments host config (Datagram.isFor host infoHash))

theorem Counted.perform (counted : pool.Counted host config) {index : Nat}
    {slot : Option Context} {job : Datagram} {op : Op} {next : op.Answer → Worker Unit}
    {choice : Choice} (normal : choice.delivery = .normal) {conduct : Conduct}
    (permitted : conduct.permits host config job op)
    (balanced : (pool.perform index slot job op next choice).Balanced host config) :
    (pool.perform index slot job op next choice).Counted host config := by
  intro infoHash fits
  have bounded := balanced (Datagram.isFor host infoHash)
  have earlier : pool.promotions host config (Datagram.isFor host infoHash) < 2 ^ 63 := by
    refine Nat.lt_of_le_of_lt ?_ fits
    simp only [promotions, Pool.perform, countP_cons_add]
    omega
  have holds := counted infoHash earlier
  cases op with
  | redisCommand redis request =>
      have stored : (pool.perform index slot job (.redisCommand redis request) next
          choice).store = pool.store.after request := store_of_normal normal slot redis request
      have logged : (pool.perform index slot job (.redisCommand redis request) next
          choice).increments host config (Datagram.isFor host infoHash) =
          pool.increments host config (Datagram.isFor host infoHash) +
            (Datagram.isFor host infoHash job &&
              decide (request = job.countCommand host config)).toNat :=
        countP_cons_add ..
      rw [stored]
      rw [logged] at bounded ⊢
      by_cases member : (KeyName.torrent infoHash).encode host config ∈ request.writes
      · obtain ⟨rfl, rfl⟩ := Conduct.writes_torrent permitted member
        simp only [Datagram.isFor, decide_true, Bool.and_self, Bool.toNat_true] at bounded ⊢
        exact holds.increment (by omega)
      · have other : (Datagram.isFor host infoHash job &&
            decide (request = job.countCommand host config)) = false := by
          by_contra counts
          simp only [Datagram.isFor, Bool.not_eq_false, Bool.and_eq_true,
            decide_eq_true_eq] at counts
          obtain ⟨rfl, rfl⟩ := counts
          exact member (List.mem_singleton.mpr rfl)
        rw [other]
        exact holds.of_find? (pool.store.find?_after_of_not_mem_writes member)
  | _ =>
      simp only [increments, Pool.perform, countP_cons_add, Performed.increments,
        Performed.command?, Bool.and_false, Bool.toNat_false, Nat.add_zero]
      exact holds

theorem Counted.changes (changes : pool.Changes host config action after)
    (conforms : pool.Conforms host config fun _ _ => True) (answered : Answered action)
    (counted : pool.Counted host config) (balanced : after.Balanced host config) :
    after.Counted host config := by
  cases changes with
  | receive sender data serving | spawn | take serving idle queued | finish choice ends | turns action phase =>
      exact counted
  | wait seconds => exact fun infoHash fits => (counted infoHash fits).advance seconds
  | edit whitelist members =>
      exact fun infoHash fits => (counted infoHash fits).of_find?
        (find?_edit _ _ _ id)
  | perform choice calls =>
      obtain ⟨conduct, follows, -⟩ := conforms.behaves calls
      exact counted.perform (answered _ choice rfl) follows.1 balanced

/-- A peer was promoted at most as often as it was filed as a leecher, counting
the record it has now as one promotion to come. -/
def Supplied (host : Host) (config : BtConfig) (pool : Pool) : Prop :=
  ∀ infoHash peerId,
    pool.promotions host config (Datagram.isFrom host infoHash peerId) +
        (pool.store.find?
          ((KeyName.peer infoHash false peerId).encode host config)).isSome.toNat ≤
      pool.insertions host config (Datagram.isFrom host infoHash peerId)

/-- Time only removes records. -/
private theorem toNat_isSome_advance (store : Redis.Store) (seconds : Nat) (key : Bytes) :
    ((store.advance seconds).find? key).isSome.toNat ≤ (store.find? key).isSome.toNat := by
  rw [Redis.Store.find?_advance]
  cases store.find? key with
  | none => exact Nat.le_refl _
  | some entry => exact Bool.toNat_le _

/-- A `SETEX` succeeds if the time to live is positive. -/
private theorem confirms_setex (store : Redis.Store) (listing : Redis.Listing) (key : Bytes)
    (seconds : Int) (value : Bytes) :
    Conduct.confirms (some (store.exec listing (.setex key seconds value)).1) =
      decide (0 < seconds) := by
  by_cases positive : 0 < seconds
  · have accepted : ¬seconds ≤ 0 := by omega
    simp [Conduct.confirms, Redis.Store.exec, Redis.Reply.isError, accepted, positive]
  · have refused : seconds ≤ 0 := by omega
    simp [Conduct.confirms, Redis.Store.exec, Redis.Reply.isError, refused, positive]

/-- A `RENAME` succeeds if there is something to rename. -/
private theorem confirms_rename (store : Redis.Store) (listing : Redis.Listing)
    (source target : Bytes) :
    Conduct.confirms (some (store.exec listing (.rename source target)).1) =
      (store.find? source).isSome := by
  cases found : store.find? source <;>
    simp [Conduct.confirms, Redis.Store.exec, found, Redis.Reply.isError]

private theorem isFrom_iff {infoHash peerId : Octets 20} {job : Datagram} :
    Datagram.isFrom host infoHash peerId job = true ↔
      (job.announce host).infoHash = infoHash ∧ (job.announce host).peerId = peerId := by
  simp [Datagram.isFrom, Datagram.isFor]

/-- One command, in numbers: what it adds to the promotions of a peer and to the
existence of its record is covered by what it adds to the insertions. -/
private theorem supply {store : Redis.Store} {job : Datagram} {conduct : Conduct}
    {redis : Context} {request : Redis.Command} (listing : Redis.Listing)
    (infoHash peerId : Octets 20)
    (permitted : conduct.permits host config job (.redisCommand redis request))
    (performed : Performed) (byJob : performed.job = job)
    (command : performed.command? =
      some (request, Conduct.confirms (some (store.exec listing request).1))) :
    (Datagram.isFrom host infoHash peerId job && performed.promotes host config).toNat +
        ((store.after request).find?
          ((KeyName.peer infoHash false peerId).encode host config)).isSome.toNat ≤
      (Datagram.isFrom host infoHash peerId job && performed.insertsLeecher host config).toNat +
        (store.find? ((KeyName.peer infoHash false peerId).encode host config)).isSome.toNat := by
  subst byJob
  by_cases member : (KeyName.peer infoHash false peerId).encode host config ∈ request.writes
  · obtain ⟨mine, written⟩ := Conduct.writes_leecher permitted member
    obtain ⟨rfl, rfl⟩ := isFrom_iff.mp mine
    change _ + ((store.after request).find?
      (performed.job.recordKey host config false)).isSome.toNat ≤
        _ + (store.find? (performed.job.recordKey host config false)).isSome.toNat
    rcases written with ⟨seconds, value, rfl, registers, left⟩ | rfl | rfl
    · rw [confirms_setex] at command
      by_cases positive : 0 < seconds
      · have inserts : performed.insertsLeecher host config = true := by
          simpa [Performed.insertsLeecher, command, positive, registers] using left
        have notPromotes : performed.promotes host config = false := by
          simp [Performed.promotes, command, Datagram.promoteCommand]
        simp [mine, inserts, notPromotes]
        exact Nat.le_trans (Bool.toNat_le _) (Nat.le_add_right _ _)
      · rw [Redis.Store.find?_after_setex, if_neg fun both => positive both.1]
        simp [Performed.promotes, command, Datagram.promoteCommand]
    · rw [Redis.Store.find?_after_del, if_pos rfl]
      simp [Performed.promotes, command, Datagram.promoteCommand]
    · rw [Datagram.promoteCommand, confirms_rename] at command
      cases found : store.find? (performed.job.recordKey host config false) with
      | none =>
          rw [Datagram.promoteCommand, Redis.Store.after_rename_of_none _ found, found]
          simp [Performed.promotes, command, found]
      | some entry =>
          have moved : performed.job.recordKey host config true ≠
              performed.job.recordKey host config false := by
            simp [Datagram.recordKey, Datagram.peerKeyName]
          rw [Datagram.promoteCommand, Redis.Store.find?_after_rename _ _ found, if_neg moved,
            if_pos rfl]
          exact Nat.le_trans (Bool.toNat_le _) (Nat.le_add_left _ _)
  · rw [store.find?_after_of_not_mem_writes member]
    have notPromoted : (Datagram.isFrom host infoHash peerId performed.job &&
        performed.promotes host config) = false := by
      by_contra promoted
      rw [Bool.not_eq_false, Bool.and_eq_true, isFrom_iff] at promoted
      obtain ⟨⟨rfl, rfl⟩, promotes⟩ := promoted
      rw [Performed.promotes, command, decide_eq_true_eq, Option.some.injEq,
        Prod.mk.injEq] at promotes
      rw [promotes.1] at member
      exact member (List.mem_cons_self ..)
    rw [notPromoted]
    simp

theorem Supplied.changes (changes : pool.Changes host config action after)
    (conforms : pool.Conforms host config fun _ _ => True) (answered : Answered action)
    (supplied : pool.Supplied host config) : after.Supplied host config := by
  intro infoHash peerId
  have before := supplied infoHash peerId
  cases changes with
  | receive sender data serving | spawn | take serving idle queued | finish choice ends | turns action phase =>
      exact before
  | wait seconds =>
      exact Nat.le_trans (Nat.add_le_add_left (toNat_isSome_advance ..) _) before
  | edit whitelist members =>
      change _ + ((pool.store.put (listKey config whitelist) _).find? _).isSome.toNat ≤ _
      rw [find?_edit _ _ _ id]
      exact before
  | perform choice calls =>
      rename_i index slot job op next
      obtain ⟨conduct, follows, -⟩ := conforms.behaves calls
      have normal := answered index choice rfl
      cases op with
      | redisCommand redis request =>
          have permitted : conduct.permits host config job (.redisCommand redis request) :=
            follows.1
          have step := supply choice.listing infoHash peerId permitted
            ⟨job, .redisCommand redis request,
              (World.exec (.redisCommand redis request) (pool.world slot choice)).1,
              (World.exec (.redisCommand redis request) (pool.world slot choice)).2.sent⟩ rfl
            (by rw [← reply_of_normal normal slot redis request]; rfl)
          simp only [promotions, insertions, Pool.perform, countP_cons_add] at before ⊢
          rw [store_of_normal normal]
          omega
      | _ =>
          simp only [promotions, insertions, Pool.perform, countP_cons_add, Performed.promotes,
            Performed.insertsLeecher, Performed.command?, reduceCtorEq, decide_false,
            Bool.and_false, Bool.toNat_false, Nat.add_zero]
          exact before

/-! ## Every schedule -/

/-- All three invariants, along every schedule in which Redis answers. -/
theorem Reached.balanced {schedule : List Action}
    (reached : Reached host config (fun _ _ => Answered) schedule pool) :
    pool.Conforms host config (fun _ _ => True) ∧ pool.Balanced host config ∧
      pool.Counted host config ∧ pool.Supplied host config := by
  induction reached with
  | start =>
      refine ⟨.start, fun _ => rfl, fun _ _ => .inl ⟨rfl, Redis.Store.find?_empty _⟩, ?_⟩
      intro infoHash peerId
      rw [Pool.start, Redis.Store.find?_empty]
      exact Nat.le_refl _
  | @act schedule pool reached action possible answered ih =>
      obtain ⟨conforms, balanced, counted, supplied⟩ := ih
      have changes := pool.changes_act host config action
      have next := balanced.changes changes conforms
      exact ⟨conforms.changes changes (fun _ => trivial) fun _ _ _ _ _ _ _ _ _ _ _ => trivial,
        next, counted.changes changes conforms answered next,
        supplied.changes changes conforms answered⟩

/-- Whenever no thread is between a promotion and its increment, the counter of
each torrent is the number of promotions confirmed for it; and at all times the
increments for a peer are at most as many as the times it was filed as a
leecher. -/
theorem Reached.downloads {schedule : List Action}
    (reached : Reached host config (fun _ _ => Answered) schedule pool)
    (few : pool.promotions host config (fun _ => true) < 2 ^ 63) :
    ((∀ thread ∈ pool.threads, thread.owes (fun _ => true) = false) → ∀ infoHash,
      pool.store.countAt ((KeyName.torrent infoHash).encode host config) (ascii "downs") =
        pool.promotions host config (Datagram.isFor host infoHash)) ∧
    ∀ infoHash peerId, pool.increments host config (Datagram.isFrom host infoHash peerId) ≤
      pool.insertions host config (Datagram.isFrom host infoHash peerId) := by
  obtain ⟨-, balanced, counted, supplied⟩ := reached.balanced
  refine ⟨fun settled infoHash => ?_, fun infoHash peerId => ?_⟩
  · have fits : pool.promotions host config (Datagram.isFor host infoHash) < 2 ^ 63 := by
      refine Nat.lt_of_le_of_lt (List.countP_mono_left fun performed _ promotes => ?_) few
      rw [Bool.and_eq_true] at promotes
      exact Bool.and_eq_true_iff.mpr ⟨rfl, promotes.2⟩
    have nothing : pool.owed (Datagram.isFor host infoHash) = 0 := by
      refine List.countP_eq_zero.mpr fun thread member owes => ?_
      have free := settled thread member
      simp only [Thread.owes] at owes free
      split at owes
      · simp_all
      · cases owes
    have balance := balanced (Datagram.isFor host infoHash)
    rw [nothing, Nat.add_zero] at balance
    have holds := counted infoHash fits
    rw [balance] at holds
    exact holds.countAt fits
  · have balance := balanced (Datagram.isFrom host infoHash peerId)
    have supply := supplied infoHash peerId
    omega

/-- A leecher that announces itself and then reports that it is complete. -/
def completion : List Action :=
  [.spawn, .receive ⟨1, 1⟩ (BtAnnounceReq.sample 5 2).datagram, .take 0] ++
    List.replicate 40 (.step 0 .calm) ++
    [.receive ⟨1, 1⟩ (BtAnnounceReq.sample 0 1).datagram, .take 0] ++
    List.replicate 40 (.step 0 .calm)

theorem downloads_completion :
    (start.run .little .shipped completion).promotions .little .shipped (fun _ => true) = 1 ∧
    (start.run .little .shipped completion).store.countAt
        ((KeyName.torrent (BtAnnounceReq.sample 0 1).infoHash).encode .little .shipped)
        (ascii "downs") =
      (start.run .little .shipped completion).promotions .little .shipped
        (Datagram.isFor .little (BtAnnounceReq.sample 0 1).infoHash) := by
  have one : (start.run .little .shipped completion).promotions .little .shipped
      (fun _ => true) = 1 := by decide +kernel
  have reached : Reached .little .shipped (fun _ _ => Answered) (completion.reverse ++ [])
      (start.run .little .shipped completion) := by
    refine Reached.run .start completion (by decide +kernel) ?_
    rintro action member index choice rfl
    simp [completion] at member
    rw [member.2]
    rfl
  have settled : ∀ thread ∈ (start.run .little .shipped completion).threads,
      thread.owes (fun _ => true) = false := by decide +kernel
  exact ⟨one, (reached.downloads (by rw [one]; decide)).1 settled _⟩

end Pool

end BtTracker
