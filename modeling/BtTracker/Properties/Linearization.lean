import BtTracker.Correctness.Keyspace
import BtTracker.Properties.Downloads

/-!
# One event for every decision

The threads of the pool interleave their commands, commands get lost, and a
completed download takes two of them.  Nevertheless there is always a single
sequence of events of the abstract tracker that explains the database: each
command that decides something and reaches the server is one event, at the moment
it is executed and on behalf of the job that sent it, and nothing else but time is
an event.
-/

namespace BtTracker

open BtTracker.Foundation BtTracker.Specification

/-- The command reaches the server. -/
def Redis.Delivery.Executes : Redis.Delivery → Prop
  | .normal | .unanswered => True
  | .unsent | .refused _ => False

variable (host : Host) (config : BtConfig)

/-- The event that a command means when it is sent for a job that has read some
addresses. -/
inductive Datagram.Means (loaded : SockaddrIn → Prop) (job : Datagram) :
    Redis.Command → TrackerEvent → Prop where
  | issue (asked : job.action host = some .connect) (connectionId : BitVec 64) :
      Means loaded job (grantCommand host config connectionId) (.issue connectionId)
  | register (asked : job.action host = some .announce) (registers : job.Registers host)
      {address : SockaddrIn} (reads : loaded address) (padding : Octets 6) :
      Means loaded job
        (.setex (job.recordKey host config (job.isSeeder host)) config.peerTtl
          ((job.recordFrom host address padding).image host))
        (.register (job.announce host).infoHash (job.isSeeder host) (job.announce host).peerId
          (job.recordFrom host address padding))
  | leave (asked : job.action host = some .announce)
      (stopped : job.event host = some .stopped) :
      Means loaded job (job.removeCommand host config)
        (.leave (job.announce host).infoHash (job.isSeeder host) (job.announce host).peerId)
  | complete (asked : job.action host = some .announce)
      (completed : job.event host = some .completed) :
      Means loaded job (job.promoteCommand host config)
        (.complete (job.announce host).infoHash (job.announce host).peerId)

namespace Pool

/-- The action is not a command that decides something and reaches the server. -/
def Undecided (pool : Pool) (action : Action) : Prop :=
  ∀ index choice, action = .step index choice → ∀ slot job redis request next,
    pool.threads[index]? = some ⟨slot, some (job, .call (.redisCommand redis request) next)⟩ →
      request.Decides → ¬choice.delivery.Executes

/-- The events of one action. -/
inductive Takes (pool : Pool) : Action → List TrackerEvent → Prop where
  | wait (seconds : Nat) : Takes pool (.wait seconds) [.wait seconds]
  | decide {index : Nat} {slot : Option Context} {job : Datagram} {redis : Context}
      {request : Redis.Command} {next : Option Redis.Reply → Worker Unit} (choice : Choice)
      (calls : pool.threads[index]? =
        some ⟨slot, some (job, .call (.redisCommand redis request) next)⟩)
      (executes : choice.delivery.Executes) {event : TrackerEvent}
      (means : job.Means host config (pool.Loaded job) request event) :
      Takes pool (.step index choice) [event]
  | nothing {action : Action} (still : ∀ seconds, action ≠ .wait seconds)
      (undecided : pool.Undecided action) : Takes pool action []

/-- The events of a schedule, like the schedule itself with the last one first. -/
inductive Linearizes : List Action → Pool → List TrackerEvent → Prop where
  | start : Linearizes [] start []
  | act {schedule : List Action} {pool : Pool} {events : List TrackerEvent} {action : Action}
      {more : List TrackerEvent} (earlier : Linearizes schedule pool events)
      (takes : pool.Takes host config action more) :
      Linearizes (action :: schedule) (pool.act host config action) (more ++ events)

/-- The database holds the state of the tracker, except that a counter lags behind
by the increments still owed for its torrent, and by those that got lost. -/
def Tracks (lossless : Prop) (pool : Pool) (tracker : TrackerState) : Prop :=
  ∃ counters, Represents host config tracker counters pool.store ∧
    ∀ infoHash, counters infoHash ≤ countMax ∧
      tracker.downloads infoHash ≤ countMax ∧
      min (counters infoHash + pool.owed (Datagram.isFor host infoHash)) countMax ≤
        tracker.downloads infoHash ∧
      (lossless → tracker.downloads infoHash ≤
        counters infoHash + pool.owed (Datagram.isFor host infoHash))

end Pool

variable {host config}

/-! ## Events and commands -/

/-- A decision of a job that owes nothing means an event. -/
theorem Conduct.permits.means {conduct : Conduct} {job : Datagram} {redis : Context}
    {request : Redis.Command} {loaded : SockaddrIn → Prop}
    (permitted : conduct.permits host config job (.redisCommand redis request))
    (grants : (Op.redisCommand redis request).Grants host config)
    (settled : conduct.owes = false)
    (reads : ∀ address, conduct.sender = some address → loaded address)
    (decides : request.Decides) : ∃ event, job.Means host config loaded request event := by
  simp only [permits, settled, Bool.false_eq_true, if_false] at permitted
  cases request with
  | setex key seconds value =>
      rcases permitted with ⟨asked, connectionId, granted⟩ | ⟨asked, registers, rfl, rfl, address,
        padding, remembered, rfl⟩
      · rw [grants connectionId granted]
        exact ⟨_, .issue asked connectionId⟩
      · exact ⟨_, .register asked registers (reads address remembered) padding⟩
  | del key =>
      obtain ⟨asked, stopped, rfl⟩ := permitted
      exact ⟨_, .leave asked stopped⟩
  | rename source target =>
      obtain ⟨asked, completed, rfl, rfl⟩ := permitted
      exact ⟨_, .complete asked completed⟩
  | _ => exact decides.elim

namespace Datagram.Means

variable {loaded : SockaddrIn → Prop} {job : Datagram} {request : Redis.Command}
  {event : TrackerEvent}

/-- A decision changes the database as its event changes the tracker. -/
theorem represents (means : job.Means host config loaded request event) {tracker : TrackerState}
    {counters : Octets 20 → Nat} {store : Redis.Store}
    (represents : Represents host config tracker counters store) :
    Represents host config (tracker.step config.terms event) counters (store.after request) := by
  cases means with
  | issue asked connectionId => exact represents.issue connectionId
  | register asked registers reads padding => exact represents.register _ _ _ _
  | leave asked stopped => exact represents.leave _ _ _
  | complete asked completed => exact represents.complete _ _

/-- A download counts for the tracker exactly when the job learns that it owes an
increment. -/
theorem step_downloads (means : job.Means host config loaded request event) {tracker : TrackerState}
    {counters : Octets 20 → Nat} {store : Redis.Store}
    (represents : Represents host config tracker counters store) {infoHash : Octets 20}
    (bounded : tracker.downloads infoHash ≤ countMax) {conduct : Conduct}
    (settled : conduct.owes = false) (redis : Context) (listing : Redis.Listing) :
    (tracker.step config.terms event).downloads infoHash =
      min (tracker.downloads infoHash + (Datagram.isFor host infoHash job &&
        (conduct.next (.redisCommand redis request)
          (some (store.exec listing request).1)).owes).toNat) countMax := by
  have kept : tracker.downloads infoHash =
      min (tracker.downloads infoHash + (Datagram.isFor host infoHash job && false).toNat)
        countMax := by
    rw [Bool.and_false, Bool.toNat_false, Nat.add_zero, Nat.min_eq_left bounded]
  cases means with
  | issue asked connectionId =>
      simp only [grantCommand, Conduct.next, settled]
      exact kept
  | register asked registers reads padding =>
      simp only [Conduct.next, settled, Tracker.step]
      split <;> exact kept
  | leave asked stopped =>
      simp only [removeCommand, Conduct.next, settled]
      exact kept
  | complete asked completed =>
      have leecher := represents.entries (job.peerKeyName host false) trivial
      simp only [peerKeyName, filed] at leecher
      simp only [promoteCommand, recordKey, peerKeyName, Conduct.next, Tracker.step]
      cases found : tracker.records
          ((job.announce host).infoHash, false, (job.announce host).peerId) with
      | none =>
          rw [found] at leecher
          simp only [Redis.Store.exec, leecher, Option.map_none]
          exact kept
      | some record =>
          rw [found] at leecher
          simp only [Redis.Store.exec, leecher, Option.map_some]
          change Function.update tracker.downloads _ _ infoHash =
            min (_ + (Datagram.isFor host infoHash job && true).toNat) countMax
          by_cases same : infoHash = (job.announce host).infoHash
          · subst same
            simp [Datagram.isFor, BtConfig.terms, Tracker.file]
          · have other := Ne.symm same
            rw [Function.update_of_ne same]
            simpa [Datagram.isFor, other] using (Nat.min_eq_left bounded).symm

end Datagram.Means

/-! ## One action -/

namespace Pool

variable {pool after : Pool} {action : Action} {index : Nat} {slot : Option Context}
  {job : Datagram}

/-- An operation changes what is owed as it changes the memory of its job. -/
theorem owed_perform {op : Op} {next : op.Answer → Worker Unit} {conduct : Conduct}
    (behaves : Behaves host config job conduct (.call op next))
    (calls : pool.threads[index]? = some ⟨slot, some (job, .call op next)⟩) (choice : Choice)
    (kind : Datagram → Bool) :
    (pool.perform index slot job op next choice).owed kind + (kind job && conduct.owes).toNat =
      pool.owed kind + (kind job &&
        (conduct.next op (World.exec op (pool.world slot choice)).1).owes).toNat := by
  have running := behaves.counts_eq
  have continues : Worker.counts (next (World.exec op (pool.world slot choice)).1) =
      (conduct.next op (World.exec op (pool.world slot choice)).1).owes :=
    Behaves.counts_eq (behaves.2 _)
  have threads := countP_set_add (Thread.owes kind) calls
    ⟨(World.exec op (pool.world slot choice)).2.slot,
      some (job, next (World.exec op (pool.world slot choice)).1)⟩
  simp only [Thread.owes, running, continues] at threads
  exact threads

/-- Actions other than operations change nothing that is owed. -/
theorem owed_set {running replaced : Option (Datagram × Worker Unit)}
    (found : pool.threads[index]? = some ⟨slot, running⟩) {kind : Datagram → Bool}
    (before : Thread.owes kind ⟨slot, running⟩ = false)
    (later : Thread.owes kind ⟨slot, replaced⟩ = false) :
    (pool.threads.set index ⟨slot, replaced⟩).countP (Thread.owes kind) = pool.owed kind := by
  have threads := countP_set_add (Thread.owes kind) found ⟨slot, replaced⟩
  rw [before, later] at threads
  exact threads

/-- No thread owes anything for any kind of job. -/
theorem owed_eq_zero (settled : ∀ thread ∈ pool.threads, thread.owes (fun _ => true) = false)
    (kind : Datagram → Bool) : pool.owed kind = 0 := by
  apply List.countP_eq_zero.mpr
  intro thread member owes
  have free := settled thread member
  rw [Thread.owes] at owes free
  split at owes
  · rename_i running
    simp only [running, Bool.true_and] at free
    rw [free, Bool.and_false] at owes
    cases owes
  · cases owes

variable {lossless : Prop} {tracker : TrackerState}

/-- What leaves the database and the debts alone keeps the relation. -/
theorem Tracks.congr (tracks : pool.Tracks host config lossless tracker)
    (store : after.store = pool.store) (owed : ∀ kind, after.owed kind = pool.owed kind) :
    after.Tracks host config lossless tracker := by
  obtain ⟨counters, represents, counted⟩ := tracks
  refine ⟨counters, store ▸ represents, fun infoHash => ?_⟩
  rw [owed]
  exact counted infoHash

section Command

variable {redis : Context} {request : Redis.Command} {next : Option Redis.Reply → Worker Unit}
  {conduct : Conduct} {choice : Choice}

theorem store_of_executes (executes : choice.delivery.Executes) :
    (pool.perform index slot job (.redisCommand redis request) next choice).store =
      pool.store.after request := by
  change (pool.store.deliver choice.delivery choice.listing request).2 = _
  cases delivery : choice.delivery with
  | normal | unanswered => exact Redis.Store.exec_store ..
  | unsent | refused text =>
      rw [delivery] at executes
      exact executes.elim

theorem store_of_not_executes (lost : ¬choice.delivery.Executes) :
    (pool.perform index slot job (.redisCommand redis request) next choice).store =
      pool.store := by
  change (pool.store.deliver choice.delivery choice.listing request).2 = _
  cases delivery : choice.delivery with
  | normal | unanswered =>
      rw [delivery] at lost
      exact absurd trivial lost
  | unsent | refused text => rfl

variable (host config) in
/-- A key stays as it is while no command that writes it reaches the server, no edit
touches it and no time passes. -/
theorem find?_act_of_unwritten {action : Action} {key : Bytes}
    (still : ∀ seconds, action ≠ .wait seconds)
    (unedited : ∀ whitelist members, action = .edit whitelist members →
      listKey config whitelist ≠ key)
    (unwritten : ∀ index choice slot job redis request next, action = .step index choice →
      pool.threads[index]? = some ⟨slot, some (job, .call (.redisCommand redis request) next)⟩ →
        choice.delivery.Executes → key ∉ request.writes) :
    (pool.act host config action).store.now = pool.store.now ∧
      (pool.act host config action).store.find? key = pool.store.find? key := by
  have changes := pool.changes_act host config action
  generalize pool.act host config action = after at changes ⊢
  cases changes with
  | receive sender data serving | spawn | take serving idle queued | finish choice ends | turns action phase =>
      exact ⟨rfl, rfl⟩
  | wait seconds => exact absurd rfl (still seconds)
  | edit whitelist members => exact ⟨rfl, pool.store.find?_put_of_ne _ (unedited _ _ rfl)⟩
  | @perform index slot job op next choice calls =>
      cases op with
      | redisCommand redis request =>
          by_cases executes : choice.delivery.Executes
          · rw [store_of_executes executes]
            exact ⟨pool.store.now_after request, pool.store.find?_after_of_not_mem_writes
              (unwritten _ _ _ _ _ _ _ rfl calls executes)⟩
          · rw [store_of_not_executes executes]
            exact ⟨rfl, rfl⟩
      | _ => exact ⟨rfl, rfl⟩

/-- A job that does not get the server's own reply owes nothing. -/
theorem owes_of_not_normal (settled : conduct.owes = false)
    (abnormal : choice.delivery ≠ .normal) :
    (conduct.next (.redisCommand redis request)
      (World.exec (.redisCommand redis request) (pool.world slot choice)).1).owes = false := by
  change (conduct.next (.redisCommand redis request)
    (pool.store.deliver choice.delivery choice.listing request).1).owes = false
  cases request with
  | rename source target =>
      cases delivery : choice.delivery with
      | normal => exact absurd delivery abnormal
      | unsent | refused text | unanswered => rfl
  | hincrby key field increment => rfl
  | _ => exact settled

/-- The increment that was owed. -/
theorem Tracks.count (tracks : pool.Tracks host config lossless tracker)
    (behaves : Behaves host config job conduct (.call (.redisCommand redis request) next))
    (calls : pool.threads[index]? =
      some ⟨slot, some (job, .call (.redisCommand redis request) next)⟩)
    (normal : lossless → choice.delivery = .normal) (owes : conduct.owes = true) :
    request = job.countCommand host config ∧
      (pool.perform index slot job (.redisCommand redis request) next choice).Tracks host config
        lossless tracker := by
  obtain ⟨counters, represents, counted⟩ := tracks
  have permitted : conduct.permits host config job (.redisCommand redis request) := behaves.1
  simp only [Conduct.permits, owes, if_true] at permitted
  obtain ⟨-, rfl⟩ := permitted
  have owed (infoHash : Octets 20) := owed_perform behaves calls choice
    (Datagram.isFor host infoHash)
  have paid (reply : Option Redis.Reply) :
      (conduct.next (.redisCommand redis (job.countCommand host config)) reply).owes = false := rfl
  simp only [owes, paid, Bool.and_true, Bool.and_false, Bool.toNat_false, Nat.add_zero] at owed
  refine ⟨rfl, ?_⟩
  by_cases executes : choice.delivery.Executes
  · refine ⟨Function.update counters (job.announce host).infoHash
      (min (counters (job.announce host).infoHash + 1) countMax), ?_, fun infoHash => ?_⟩
    · rw [store_of_executes executes]
      exact represents.count _ (counted _).1
    · obtain ⟨full, most, covered, exactly⟩ := counted infoHash
      have fewer := owed infoHash
      by_cases same : infoHash = (job.announce host).infoHash
      · subst same
        have mine : Datagram.isFor host (job.announce host).infoHash job = true := by
          simp [Datagram.isFor]
        simp only [mine, Bool.toNat_true] at fewer
        rw [Function.update_self]
        refine ⟨Nat.min_le_right .., most, by omega, fun none => ?_⟩
        have total := exactly none
        omega
      · have other : Datagram.isFor host infoHash job = false := by
          simp [Datagram.isFor, Ne.symm same]
        simp only [other, Bool.toNat_false, Nat.add_zero] at fewer
        rw [Function.update_of_ne same, fewer]
        exact ⟨full, most, covered, exactly⟩
  · refine ⟨counters, by rwa [store_of_not_executes executes], fun infoHash => ?_⟩
    obtain ⟨full, most, covered, exactly⟩ := counted infoHash
    have fewer := owed infoHash
    refine ⟨full, most, by omega, fun none => ?_⟩
    rw [normal none] at executes
    exact absurd trivial executes

/-- A decision that reaches the server. -/
theorem Tracks.decide (tracks : pool.Tracks host config lossless tracker)
    (behaves : Behaves host config job conduct (.call (.redisCommand redis request) next))
    (calls : pool.threads[index]? =
      some ⟨slot, some (job, .call (.redisCommand redis request) next)⟩)
    (normal : lossless → choice.delivery = .normal) (settled : conduct.owes = false)
    (executes : choice.delivery.Executes) {event : TrackerEvent}
    (means : job.Means host config loaded request event) :
    (pool.perform index slot job (.redisCommand redis request) next choice).Tracks host config
      lossless (tracker.step config.terms event) := by
  obtain ⟨counters, represents, counted⟩ := tracks
  refine ⟨counters, ?_, fun infoHash => ?_⟩
  · rw [store_of_executes executes]
    exact means.represents represents
  · obtain ⟨full, most, covered, exactly⟩ := counted infoHash
    have owed := owed_perform behaves calls choice (Datagram.isFor host infoHash)
    have downloads := means.step_downloads represents most settled redis choice.listing
    simp only [settled, Bool.and_false, Bool.toNat_false, Nat.add_zero] at owed
    by_cases answered : choice.delivery = .normal
    · rw [reply_of_normal answered] at owed
      rw [downloads, owed]
      refine ⟨full, Nat.min_le_right .., by omega, fun none => ?_⟩
      have total := exactly none
      omega
    · rw [owes_of_not_normal settled answered, Bool.and_false, Bool.toNat_false,
        Nat.add_zero] at owed
      rw [downloads, owed]
      refine ⟨full, Nat.min_le_right .., by omega, fun none => absurd (normal none) answered⟩

/-- Any other command. -/
theorem Tracks.ask (tracks : pool.Tracks host config lossless tracker)
    (behaves : Behaves host config job conduct (.call (.redisCommand redis request) next))
    (calls : pool.threads[index]? =
      some ⟨slot, some (job, .call (.redisCommand redis request) next)⟩)
    (settled : conduct.owes = false)
    (undecided : request.Decides → ¬choice.delivery.Executes) :
    (pool.perform index slot job (.redisCommand redis request) next choice).Tracks host config
      lossless tracker := by
  have permitted : conduct.permits host config job (.redisCommand redis request) := behaves.1
  simp only [Conduct.permits, settled, Bool.false_eq_true, if_false] at permitted
  have still : (conduct.next (.redisCommand redis request)
      (World.exec (.redisCommand redis request) (pool.world slot choice)).1).owes = false := by
    by_cases answered : choice.delivery = .normal
    · have harmless : ¬request.Decides := by
        intro decides
        apply undecided decides
        rw [answered]
        trivial
      cases request with
      | setex _ _ _ | del _ | rename _ _ => exact absurd trivial harmless
      | hincrby _ _ _ => rfl
      | _ => exact settled
    · exact owes_of_not_normal settled answered
  apply tracks.congr
  · by_cases executes : choice.delivery.Executes
    · have harmless : ¬request.Decides := fun decides => undecided decides executes
      rw [store_of_executes executes]
      cases request with
      | setex _ _ _ | del _ | rename _ _ => exact absurd trivial harmless
      | hincrby _ _ _ => exact permitted.elim
      | _ => exact Redis.Store.exec_readOnly .sorted _ trivial
    · exact store_of_not_executes executes
  · intro kind
    have owed := owed_perform behaves calls choice kind
    rw [settled, still] at owed
    exact Nat.add_right_cancel owed

end Command

/-- What happens outside of the threads has no event, time apart. -/
theorem takes_aside {action : Action} (still : ∀ seconds, action ≠ .wait seconds)
    (aside : ∀ index choice, action ≠ .step index choice) : pool.Takes host config action [] := by
  apply Takes.nothing still
  intro index choice same
  exact absurd same (aside index choice)

theorem takes_step {choice : Choice} (undecided : pool.Undecided (.step index choice)) :
    pool.Takes host config (.step index choice) [] := by
  apply Takes.nothing
  · intro seconds same
    cases same
  · exact undecided

/-- Between two commands of a thread nothing is decided. -/
theorem takes_quiet {choice : Choice} (quiet : ∀ slot job redis request next,
      pool.threads[index]? ≠ some ⟨slot, some (job, .call (.redisCommand redis request) next)⟩) :
    pool.Takes host config (.step index choice) [] := by
  apply takes_step
  intro other chosen same slot job redis request next calls
  cases same
  exact absurd calls (quiet slot job redis request next)

/-- What is not a command decides nothing. -/
private theorem undecided_of_op {op : Op} {next : op.Answer → Worker Unit} {choice : Choice}
    (calls : pool.threads[index]? = some ⟨slot, some (job, .call op next)⟩)
    (harmless : ∀ redis request, op = .redisCommand redis request → request.Decides →
      ¬choice.delivery.Executes) : pool.Undecided (.step index choice) := by
  intro other chosen same slot' job' redis request next' calls' decides
  cases same
  rw [calls] at calls'
  injection calls' with threads
  injection threads with _ running
  injection running with pairs
  injection pairs with _ programs
  injection programs with ops _
  exact harmless redis request ops decides

/-- One operation of a thread. -/
theorem Tracks.perform (tracks : pool.Tracks host config lossless tracker) {op : Op}
    {next : op.Answer → Worker Unit} {conduct : Conduct}
    (behaves : Behaves host config job conduct (.call op next))
    (remembers : ∀ address, conduct.sender = some address → pool.Loaded job address)
    (grants : op.Grants host config)
    (calls : pool.threads[index]? = some ⟨slot, some (job, .call op next)⟩) {choice : Choice}
    (normal : lossless → choice.delivery = .normal) :
    ∃ events, pool.Takes host config (.step index choice) events ∧
      (pool.perform index slot job op next choice).Tracks host config lossless
        (tracker.steps config.terms events) := by
  have permitted : conduct.permits host config job op := behaves.1
  cases op with
  | redisCommand redis request =>
      cases owes : conduct.owes with
      | true =>
          obtain ⟨rfl, counted⟩ := tracks.count behaves calls normal owes
          refine ⟨[], takes_step (undecided_of_op calls ?_), counted⟩
          intro _ _ same decides
          cases same
          exact decides.elim
      | false =>
          by_cases decides : request.Decides ∧ choice.delivery.Executes
          · obtain ⟨event, means⟩ := permitted.means grants owes remembers decides.1
            exact ⟨[event], .decide choice calls decides.2 means,
              tracks.decide behaves calls normal owes decides.2 means⟩
          · have undecided : request.Decides → ¬choice.delivery.Executes := not_and.mp decides
            refine ⟨[], takes_step (undecided_of_op calls ?_),
              tracks.ask behaves calls owes undecided⟩
            intro _ _ same
            cases same
            exact undecided
  | _ =>
      have owed := owed_perform behaves calls choice
      refine ⟨[], takes_step (undecided_of_op calls ?_), tracks.congr rfl fun kind => ?_⟩
      · intro _ _ same
        cases same
      · exact Nat.add_right_cancel (owed kind)

/-- Every action has its events. -/
theorem Tracks.act (possible : pool.phase.allows action = true)
    (conforms : pool.Conforms host config fun job conduct =>
      ∀ address, conduct.sender = some address → pool.Loaded job address)
    (programs : pool.Programs fun _ =>
      Program.Performs (Op.Grants host config) (fun _ => True))
    (answered : lossless → Answered action)
    (tracks : pool.Tracks host config lossless tracker) :
    ∃ events, pool.Takes host config action events ∧
      (pool.act host config action).Tracks host config lossless
        (tracker.steps config.terms events) := by
  rw [Pool.act, if_pos possible]
  cases action with
  | receive sender data => exact ⟨[], takes_aside (by simp) (by simp), tracks⟩
  | spawn =>
      refine ⟨[], takes_aside (by simp) (by simp), tracks.congr rfl fun kind => ?_⟩
      simp only [advance, owed, List.countP_append, List.countP_cons, List.countP_nil,
        Thread.owes]
      rfl
  | take index =>
      refine ⟨[], takes_aside (by simp) (by simp), ?_⟩
      rw [advance]
      split
      · rename_i idle queued
        refine tracks.congr rfl fun kind => owed_set idle rfl ?_
        simp only [Thread.owes, Behaves.counts_eq btRequestProcessor_behaves]
        exact Bool.and_false _
      · exact tracks
  | step index choice =>
      rw [advance]
      split
      · rename_i calls
        obtain ⟨conduct, behaves, remembers⟩ := conforms.behaves calls
        exact tracks.perform behaves remembers (programs.at_index calls).1 calls
          fun none => answered none _ choice rfl
      · rename_i ends
        refine ⟨[], takes_quiet fun _ _ _ _ _ calls => ?_, tracks.congr rfl fun kind => ?_⟩
        · rw [ends] at calls
          cases calls
        · exact owed_set ends (Bool.and_false _) rfl
      · rename_i faults
        refine ⟨[], takes_quiet fun _ _ _ _ _ calls => ?_, tracks⟩
        rw [faults] at calls
        cases calls
      · rename_i noCall _ _
        exact ⟨[], takes_quiet fun _ _ _ _ _ => noCall _ _ _ _, tracks⟩
  | terminate =>
      refine ⟨[], takes_aside (by simp) (by simp), ?_⟩
      rw [advance, onSigterm]
      split <;> exact tracks
  | leave =>
      refine ⟨[], takes_aside (by simp) (by simp), ?_⟩
      rw [advance, Pool.leave]
      split <;> exact tracks
  | wait seconds =>
      obtain ⟨counters, represents, counted⟩ := tracks
      exact ⟨[.wait seconds], .wait seconds, counters, represents.advance seconds, counted⟩
  | edit whitelist members =>
      obtain ⟨counters, represents, counted⟩ := tracks
      refine ⟨[], takes_aside (by simp) (by simp), counters, ?_, counted⟩
      cases whitelist with
      | true =>
          have isList : KeyName.whitelist.IsList := trivial
          exact represents.edit isList _
      | false =>
          have isList : KeyName.blacklist.IsList := trivial
          exact represents.edit isList _

/-! ## Every schedule -/

variable {permits : List Action → Pool → Action → Prop} {schedule : List Action}

/-- Every job keeps to its protocol, along every schedule. -/
theorem Reached.conforms (reached : Reached host config permits schedule pool) :
    pool.Conforms host config fun _ _ => True := by
  induction reached with
  | start => exact .start
  | act reached action possible permitted ih =>
      exact ih.changes (changes_act ..) (fun _ => trivial)
        fun _ _ _ _ _ _ _ _ _ _ _ => trivial

/-- Along every schedule there are events that explain the database. -/
theorem Reached.tracks (reached : Reached host config permits schedule pool) :
    ∃ events, Linearizes host config schedule pool events ∧
      pool.Tracks host config (∀ action ∈ schedule, Answered action)
        (Tracker.initial.steps config.terms events) := by
  induction reached with
  | start =>
      refine ⟨[], .start, fun _ => 0, Represents.empty, fun infoHash => ?_⟩
      exact ⟨Nat.zero_le _, Nat.zero_le _, Nat.zero_le _, fun _ => Nat.zero_le _⟩
  | @act schedule pool reached action possible permitted ih =>
      obtain ⟨events, linearizes, counters, represents, counted⟩ := ih
      have programs : pool.Programs fun _ =>
          Program.Performs (Op.Grants host config) (fun _ => True) :=
        reached.programs (fun job => btRequestProcessor_grants job.params)
          fun _ _ _ answer performs => performs.2 answer
      have before : pool.Tracks host config (∀ other ∈ action :: schedule, Answered other)
          (Tracker.initial.steps config.terms events) := by
        refine ⟨counters, represents, fun infoHash => ?_⟩
        obtain ⟨full, most, covered, exactly⟩ := counted infoHash
        exact ⟨full, most, covered, fun all => exactly fun other member =>
          all other (List.mem_cons_of_mem _ member)⟩
      obtain ⟨more, takes, after⟩ := before.act possible reached.loads programs
        fun all => all action (List.mem_cons_self ..)
      rw [← Tracker.steps_append] at after
      exact ⟨more ++ events, linearizes.act takes, after⟩

/-- Every record in the database was registered for its torrent, and has not expired. -/
theorem Reached.registered (reached : Reached host config permits schedule pool)
    {infoHash : Octets 20} {isSeeder : Bool} {peerId : Octets 20} {entry : Redis.Entry}
    (found : pool.store.find? ((KeyName.peer infoHash isSeeder peerId).encode host config) =
      some entry) :
    ∃ events record deadline, Linearizes host config schedule pool events ∧
      Tracker.Registered config.terms events infoHash peerId record deadline ∧
      pool.store.now = (Tracker.initial.steps config.terms events).now ∧
      pool.store.now < deadline ∧ entry = ⟨.string (record.image host), some deadline⟩ := by
  obtain ⟨events, linearizes, counters, represents, -⟩ := reached.tracks
  have expires : (KeyName.peer infoHash isSeeder peerId).Expires := trivial
  rw [represents.entries _ expires, filed] at found
  obtain ⟨⟨record, deadline⟩, filedRecord, rfl⟩ := Option.map_eq_some_iff.mp found
  obtain ⟨registered, alive⟩ := Tracker.registered_of_records filedRecord
  rw [← represents.clock] at alive
  exact ⟨events, record, deadline, linearizes, registered, represents.clock, alive, rfl⟩

/-- No counter is ahead of the tracker, and without losses and debts none lags behind. -/
theorem Tracks.exists_counters (tracks : pool.Tracks host config lossless tracker) :
    ∃ counters, Represents host config tracker counters pool.store ∧
      (∀ infoHash, counters infoHash ≤ countMax ∧
        counters infoHash ≤ tracker.downloads infoHash) ∧
      (lossless → (∀ thread ∈ pool.threads, thread.owes (fun _ => true) = false) →
        counters = tracker.downloads) := by
  obtain ⟨counters, represents, counted⟩ := tracks
  refine ⟨counters, represents, fun infoHash => ?_, fun none settled => ?_⟩
  · obtain ⟨full, most, covered, _⟩ := counted infoHash
    exact ⟨full, by omega⟩
  · funext infoHash
    obtain ⟨full, most, covered, exactly⟩ := counted infoHash
    have nothing := owed_eq_zero settled (Datagram.isFor host infoHash)
    have total := exactly none
    omega

/-- However the threads are scheduled and whichever commands get lost, one sequence
of events explains the database.  Tokens and records are exactly those of the
abstract tracker after these events.  No counter is ahead of it, and while every
command is answered the counters are exactly its own whenever no thread is between
a promotion and its increment. -/
theorem Reached.linearizes (reached : Reached host config permits schedule pool) :
    ∃ events counters, Linearizes host config schedule pool events ∧
      Represents host config (Tracker.initial.steps config.terms events) counters pool.store ∧
      (∀ infoHash, counters infoHash ≤
        (Tracker.initial.steps config.terms events).downloads infoHash) ∧
      ((∀ action ∈ schedule, Answered action) →
        (∀ thread ∈ pool.threads, thread.owes (fun _ => true) = false) →
          counters = (Tracker.initial.steps config.terms events).downloads) := by
  obtain ⟨events, linearizes, tracks⟩ := reached.tracks
  obtain ⟨counters, represents, counted, exactly⟩ := tracks.exists_counters
  exact ⟨events, counters, linearizes, represents, fun infoHash => (counted infoHash).2, exactly⟩

/-- A leecher that completes its download, by two commands. -/
theorem linearizes_completion : ∃ events counters,
    Linearizes .little .shipped completion.reverse (start.run .little .shipped completion)
      events ∧
    Represents .little .shipped (Tracker.initial.steps BtConfig.shipped.terms events) counters
      (start.run .little .shipped completion).store ∧
    counters = (Tracker.initial.steps BtConfig.shipped.terms events).downloads := by
  have reached : Reached .little .shipped (fun _ _ => Answered) (completion.reverse ++ [])
      (start.run .little .shipped completion) := by
    refine Reached.run .start completion (by decide +kernel) ?_
    intro action member index choice same
    subst same
    simp [completion] at member
    rw [member.2]
    rfl
  rw [List.append_nil] at reached
  have settled : ∀ thread ∈ (start.run .little .shipped completion).threads,
      thread.owes (fun _ => true) = false := by decide +kernel
  have answered : ∀ action ∈ completion.reverse, Answered action := by
    intro action member index choice same
    subst same
    simp [completion] at member
    rw [member.2]
    rfl
  obtain ⟨events, counters, linearizes, represents, -, exactly⟩ := reached.linearizes
  exact ⟨events, counters, linearizes, represents, exactly answered settled⟩

end Pool

end BtTracker
