import BtTracker.Properties.Noninterference
import BtTracker.Properties.Retention

/-!
# Taking a torrent out of service

The operator takes a torrent out of service by editing the lists of info hashes.
Jobs that have passed the check before may still file records.  From the moment on
at which no such job is left, the torrent is only refused, and when the time to live
of peers has passed nobody is left in its swarm.
-/

namespace BtTracker

open BtTracker.Foundation BtTracker.Specification
open BtTracker.Foundation.Program (Follows)

variable (host : Host) (config : BtConfig)

/-- Operations that change nothing and tell nothing: looking around, and sending an
error. -/
def Op.Discreet : Op → Prop
  | .redisCommand _ request => request.ReadOnly
  | .sendto _ data => ∃ transactionId msg, data = errorBlock host transactionId msg
  | _ => True

/-! ## Clearance -/

namespace Clearance

/-- A job is cleared for a torrent by a reply about it that does not refuse it. -/
def next (text : Bytes) (cleared : Bool) : (op : Op) → op.Answer → Bool
  | .redisCommand _ (.sismember key member), reply =>
      cleared || (decide (key = restrictionKey config config.infoHashRestriction.listName) &&
        decide (member = text) && !config.infoHashRestriction.refuses reply)
  | _, _ => cleared

/-- Until it is cleared a job is discreet. -/
def protocol (text : Bytes) : Program.Protocol Op Op.Answer Fault Bool where
  allows cleared op := cleared = true ∨ op.Discreet host
  next := next config text
  tolerates _ _ := True

end Clearance

variable {host config} {text : Bytes} {α : Type}

theorem Clearance.next_of_cleared (op : Op) (answer : op.Answer) :
    Clearance.next config text true op answer = true := by
  cases op with
  | redisCommand redis request => cases request <;> rfl
  | _ => rfl

/-- A job that is cleared remains so. -/
theorem Clearance.follows_of_cleared (program : Worker α) :
    Follows (protocol host config text) (fun _ last => last = true) true program := by
  induction program with
  | done result => rfl
  | fault reason => trivial
  | call op next ih =>
      refine ⟨.inl rfl, fun answer => ?_⟩
      change Follows _ _ (Clearance.next config text true op answer) (next answer)
      rw [next_of_cleared]
      exact ih answer

/-- Looking around is discreet. -/
theorem Worker.Observes.discreet {program : Worker α} (observes : program.Observes)
    (cleared : Bool) :
    Follows (Clearance.protocol host config text) (fun _ last => cleared = true → last = true)
      cleared program := by
  cases cleared with
  | true => exact (Clearance.follows_of_cleared program).mono fun _ _ kept _ => kept
  | false =>
      refine (Follows.simulate (fun _ _ => True) ?_ ?_ observes trivial).mono ?_
      · intro _ cleared op _ observes
        refine ⟨.inr ?_, fun _ => trivial⟩
        cases op with
        | redisCommand redis request => exact observes
        | sendto address data => exact observes.elim
        | _ => trivial
      · exact fun _ _ _ _ _ => trivial
      · intro _ last _ absurdity
        cases absurdity

/-- The check clears a job for the torrent it does not refuse. -/
theorem btInfoHashBlacklisted_clears (restricted : config.infoHashRestriction ≠ .none)
    (redis : Option Context) (asked : Bytes) (cleared : Bool) :
    Follows (Clearance.protocol host config text)
      (fun refused last => (cleared = true → last = true) ∧
        (refused = false → asked = text → last = true)) cleared
      (btInfoHashBlacklisted redis config asked) := by
  rw [btInfoHashBlacklisted_eq restricted]
  cases redis with
  | none => trivial
  | some redis =>
      refine ⟨.inr trivial, fun reply => ⟨?_, ?_⟩⟩
      · intro kept
        subst kept
        rfl
      · intro passed same
        simp [Clearance.protocol, Clearance.next, passed, same]

/-! ## Handlers -/

/-- A response of a job that is cleared, or an error. -/
def Clearance.Answers (host : Host) (response : Option Block) (cleared : Bool) : Prop :=
  cleared = true ∨ ∀ data ∈ response, ∃ transactionId msg,
    data = errorBlock host transactionId msg

theorem btHandleAnnounce_clears (restricted : config.infoHashRestriction ≠ .none)
    (redis : Option Context) (request : BtReq) (buff : RecvBuffer) (buflen : Nat)
    (clientAddr : SockaddrPtr)
    (named : infoHashText (btReadAnnounceRequestData host buff).infoHash = text)
    (cleared : Bool) :
    Follows (Clearance.protocol host config text) (Clearance.Answers host) cleared
      (btHandleAnnounce host request config buff buflen clientAddr redis) := by
  apply Follows.bind ((btValidRequest_observes ..).discreet cleared)
  intro valid middle _
  cases valid with
  | false =>
      right
      intro data member
      cases member
  | true =>
      apply Follows.bind (btInfoHashBlacklisted_clears restricted redis _ middle)
      intro refused last checked
      cases refused with
      | true =>
          rw [btSendError_eq]
          right
          intro data member
          cases member
          exact ⟨_, _, rfl⟩
      | false =>
          rw [checked.2 rfl named]
          exact (Clearance.follows_of_cleared _).mono fun _ _ kept => .inl kept

/-- A loop that gets through its info hashes is cleared for each of them. -/
theorem scrapeLoop_clears (restricted : config.infoHashRestriction ≠ .none)
    (redis : Option Context) {request : BtScrapeReq} (few : request.infoHashLen < 256)
    (rounds : Nat) (i : BitVec 8) (entries : List BtScrapeEntry) (cleared : Bool) :
    Follows (Clearance.protocol host config text)
      (fun result last => (cleared = true → last = true) ∧ (result.isSome = true →
        text ∈ request.texts.drop i.toNat → last = true)) cleared
      (scrapeLoop redis config request rounds i entries) := by
  induction rounds generalizing i entries cleared with
  | zero => trivial
  | succ rounds ih =>
      rw [scrapeLoop]
      split
      · rename_i more
        have texts := request.drop_texts few more
        rw [BtScrapeReq.hashAt]
        dsimp only
        split
        · rw [Program.pure_eq_done, Program.done_bind]
          apply Follows.bind (btInfoHashBlacklisted_clears restricted redis _ cleared)
          intro refused middle checked
          cases refused with
          | true =>
              refine ⟨checked.1, fun completed => ?_⟩
              cases completed
          | false =>
              apply Follows.bind ((scrapeEntry_observes ..).discreet middle)
              intro stats last kept
              apply (ih (i + 1) _ last).mono
              intro result final later
              refine ⟨fun before => later.1 (kept (checked.1 before)), fun completed member => ?_⟩
              rw [texts] at member
              rcases List.mem_cons.mp member with same | among
              · exact later.1 (kept (checked.2 rfl same.symm))
              · exact later.2 completed among
        · trivial
      · rename_i finished
        refine ⟨id, fun _ member => ?_⟩
        rw [List.drop_eq_nil_of_le (by simpa [BtScrapeReq.texts] using finished)] at member
        cases member

theorem btHandleScrape_clears (restricted : config.infoHashRestriction ≠ .none)
    (redis : Option Context) (request : BtReq) {buff : RecvBuffer} {buflen : Nat}
    {scrapeRequest : BtScrapeReq}
    (decoded : btReadScrapeRequestData host buff buflen = some scrapeRequest)
    (named : text ∈ scrapeRequest.texts) (cleared : Bool) :
    Follows (Clearance.protocol host config text) (Clearance.Answers host) cleared
      (btHandleScrape host request config buff buflen redis) := by
  apply Follows.bind ((btValidRequest_observes ..).discreet cleared)
  intro valid middle _
  cases valid with
  | false =>
      right
      intro data member
      cases member
  | true =>
      rw [decoded]
      have looped : Follows (Clearance.protocol host config text)
          (fun result last => result.isSome = true → last = true) middle
          (scrapeLoop redis config scrapeRequest 256 0 []) :=
        (scrapeLoop_clears restricted redis (infoHashLen_lt decoded) 256 0 [] middle).mono
          fun _ _ checked completed => checked.2 completed named
      change Follows _ _ middle
        (some <$> answerScrape host request config scrapeRequest redis)
      rw [answerScrape, Program.map_eq_bind, Program.bind_assoc]
      apply Follows.bind looped
      intro entries last checked
      cases entries with
      | none =>
          rw [btSendError_eq]
          right
          intro data member
          cases member
          exact ⟨_, _, rfl⟩
      | some entries =>
          rw [checked rfl]
          exact (Clearance.follows_of_cleared _).mono fun _ _ kept => .inl kept

/-- Every job that asks for the torrent is discreet until it is cleared for it. -/
theorem btRequestProcessor_clears (restricted : config.infoHashRestriction ≠ .none)
    {job : Datagram} (named : text ∈ job.requested host) :
    Follows (Clearance.protocol host config text) (fun _ _ => True) false
      (btRequestProcessor host config job.params) := by
  have responds {response : Option Block} {cleared : Bool}
      (answers : Clearance.Answers host response cleared) :
      Follows (Clearance.protocol host config text) (fun _ _ => True) cleared
        (respond job.params response) := by
    cases response with
    | none => trivial
    | some data =>
        refine ⟨?_, fun _ => trivial⟩
        rcases answers with cleared | errors
        · exact .inl cleared
        · exact .inr (errors data rfl)
  have handled (redis : Context) (cleared : Bool) :
      Follows (Clearance.protocol host config text) (Clearance.Answers host) cleared
      (dispatch host config job.params (job.request host) none (some redis)) := by
    rw [dispatch, ← Datagram.action]
    rw [Datagram.requested] at named
    cases action : job.action host with
    | none =>
        rw [action] at named
        cases named
    | some kind =>
        rw [action] at named
        cases kind with
        | connect | error => cases named
        | announce =>
            exact btHandleAnnounce_clears restricted _ _ _ _ _ (List.mem_singleton.mp named).symm _
        | scrape =>
            cases decoded : btReadScrapeRequestData host job.params.buff job.params.buflen with
            | none =>
                simp only [decoded] at named
                cases named
            | some scrapeRequest =>
                simp only [decoded] at named
                exact btHandleScrape_clears restricted _ _ decoded named _
  rw [btRequestProcessor_eq]
  apply Follows.bind ((acquireRedis_observes config).discreet false)
  intro redis cleared _
  cases redis with
  | none =>
      rw [Ledger.answerWith_none]
      apply responds
      right
      intro data member
      cases member
      exact ⟨_, _, rfl⟩
  | some redis => exact Follows.bind (handled redis cleared) fun _ _ answers => responds answers

/-! ## The lists of info hashes -/

namespace Pool

variable {infoHash : Octets 20} {schedule : List Action} {pool : Pool} {action : Action}

/-- Jobs do not write the lists of info hashes. -/
theorem list_unwritten (conforms : pool.Conforms host config fun _ _ => True)
    (whitelist : Bool) {index : Nat} {slot : Option Context} {job : Datagram} {redis : Context}
    {request : Redis.Command} {next : Option Redis.Reply → Worker Unit}
    (calls : pool.threads[index]? =
      some ⟨slot, some (job, .call (.redisCommand redis request) next)⟩) :
    listKey config whitelist ∉ request.writes := by
  intro member
  obtain ⟨conduct, behaves, -⟩ := conforms.behaves calls
  have permitted : conduct.permits host config job (.redisCommand redis request) := behaves.1
  obtain ⟨name, equal, writes⟩ := permitted.exists_writes member
  have notList : ¬name.IsList := by
    cases writes <;> exact id
  exact listKey_ne host config notList whitelist equal

variable (config) in
/-- The lists of info hashes do not expire. -/
def Perpetual (pool : Pool) : Prop :=
  ∀ whitelist entry, pool.store.find? (listKey config whitelist) = some entry →
    entry.expiresAt = none

/-- The lists stay as they are until they are edited. -/
theorem find?_list_act (conforms : pool.Conforms host config fun _ _ => True)
    (perpetual : pool.Perpetual config)
    (unedited : ∀ whitelist members, action ≠ .edit whitelist members) (whitelist : Bool) :
    (pool.act host config action).store.find? (listKey config whitelist) =
      pool.store.find? (listKey config whitelist) := by
  by_cases waits : ∃ seconds, action = .wait seconds
  · obtain ⟨seconds, rfl⟩ := waits
    rw [act_wait, Redis.Store.find?_advance]
    cases found : pool.store.find? (listKey config whitelist) with
    | none => rfl
    | some entry => simp [Option.filter, Redis.Entry.aliveAt, perpetual whitelist entry found]
  · apply (find?_act_of_unwritten host config ..).2
    · intro seconds same
      exact waits ⟨seconds, same⟩
    · intro other members same
      exact absurd same (unedited other members)
    · intro index choice slot job redis request next _ calls _
      exact list_unwritten conforms whitelist calls

theorem Reached.perpetual {permits : List Action → Pool → Action → Prop}
    (reached : Reached host config permits schedule pool) : pool.Perpetual config := by
  induction reached with
  | start =>
      intro whitelist entry found
      rw [Pool.start, Redis.Store.find?_empty] at found
      cases found
  | @act schedule pool reached action possible permitted ih =>
      intro whitelist entry found
      by_cases edits : ∃ other members, action = .edit other members
      · obtain ⟨other, members, rfl⟩ := edits
        rw [act_edit, Redis.Store.find?_put] at found
        split at found
        · cases found
          rfl
        · exact ih whitelist entry found
      · rw [find?_list_act reached.conforms ih
          fun other members same => edits ⟨other, members, same⟩] at found
        exact ih whitelist entry found

/-- Whether an info hash is refused depends on the lists only. -/
theorem refused_congr {store other : Redis.Store} {text : Bytes}
    (same : ∀ whitelist, other.find? (listKey config whitelist) =
      store.find? (listKey config whitelist))
    (refused : Refused config store text) : Refused config other text := by
  have white := same true
  have black := same false
  simp only [listKey, Bool.false_eq_true, if_true, if_false] at white black
  rw [Refused] at refused ⊢
  simp only [Redis.Store.setAt, white, black]
  exact refused

/-- A question about a torrent that is refused gets no favourable reply: its reply
refuses the torrent, or there is none. -/
theorem refuses_of_refused {store : Redis.Store} {text : Bytes}
    (refused : Refused config store text) {delivery : Redis.Delivery}
    (judged : ∀ message, delivery ≠ .refused message) (listing : Redis.Listing) :
    config.infoHashRestriction.refuses (store.deliver delivery listing (.sismember
      (restrictionKey config config.infoHashRestriction.listName) text)).1 = true := by
  have unanswered : config.infoHashRestriction.refuses none = true := by
    rw [Refused] at refused
    split at refused
    · exact refused.elim
    · rename_i mode
      rw [mode]
      rfl
    · rename_i mode
      rw [mode]
      rfl
  cases delivery with
  | normal => exact (refusedBy_iff config store text).mpr refused
  | refused message => exact absurd rfl (judged message)
  | unsent | unanswered => exact unanswered

/-! ## Out of service -/

variable (host config) (infoHash)

/-- No thread is told an error when it asks for a member of a list. -/
def Judged (pool : Pool) (action : Action) : Prop :=
  ∀ index choice slot job redis key member next message, action = .step index choice →
    pool.threads[index]? =
      some ⟨slot, some (job, .call (.redisCommand redis (.sismember key member)) next)⟩ →
        choice.delivery ≠ .refused message

/-- Schedules in which the torrent was refused at some point, while no thread had a job
that asks for it, and in which every edit since then leaves it refused; together with
the seconds that have passed. -/
inductive Revokes (permits : List Action → Pool → Action → Prop) :
    List Action → Pool → Nat → Prop where
  | revoke {schedule : List Action} {pool : Pool}
      (reached : Reached host config permits schedule pool)
      (refused : Refused config pool.store (infoHashText infoHash))
      (unconcerned : pool.Programs fun job _ => infoHashText infoHash ∉ job.requested host) :
      Revokes permits schedule pool 0
  | act {schedule : List Action} {pool : Pool} {since : Nat}
      (revokes : Revokes permits schedule pool since) (action : Action)
      (possible : pool.phase.allows action = true) (permitted : permits schedule pool action) (judged : pool.Judged action)
      (upheld : ∀ whitelist members, action = .edit whitelist members →
        Refused config (pool.act host config action).store (infoHashText infoHash)) :
      Revokes permits (action :: schedule) (pool.act host config action)
        (since + action.elapsed)

/-- What remains true of a torrent out of service: the lists refuse it, jobs that ask
for it are not cleared for it, and its records run out. -/
structure Revoked (pool : Pool) (since : Nat) : Prop where
  refused : Refused config pool.store (infoHashText infoHash)
  uncleared : pool.Programs fun job program => infoHashText infoHash ∈ job.requested host →
    Follows (Clearance.protocol host config (infoHashText infoHash)) (fun _ _ => True) false
      program
  expires : ∀ isSeeder peerId entry,
    pool.store.find? ((KeyName.peer infoHash isSeeder peerId).encode host config) = some entry →
      ∃ deadline, entry.expiresAt = some deadline ∧ pool.store.now < deadline ∧
        deadline + since ≤ pool.store.now + config.peerTtl.toNat

variable {host config infoHash} {permits : List Action → Pool → Action → Prop} {since : Nat}

theorem Revokes.reached
    (revokes : Revokes host config infoHash permits schedule pool since) :
    Reached host config permits schedule pool := by
  induction revokes with
  | revoke reached refused unconcerned => exact reached
  | act revokes action possible permitted judged upheld ih => exact ih.act action possible permitted

/-- Every record runs out within the time to live. -/
theorem Reached.expires (reached : Reached host config permits schedule pool) {isSeeder : Bool}
    {peerId : Octets 20} {entry : Redis.Entry}
    (found : pool.store.find? ((KeyName.peer infoHash isSeeder peerId).encode host config) =
      some entry) :
    ∃ deadline, entry.expiresAt = some deadline ∧ pool.store.now < deadline ∧
      deadline ≤ pool.store.now + config.peerTtl.toNat := by
  obtain ⟨events, record, deadline, -, registered, clock, alive, rfl⟩ := reached.registered found
  refine ⟨deadline, rfl, alive, ?_⟩
  rw [clock]
  exact registered.deadline_le

namespace Revoked

variable {index : Nat} {slot : Option Context} {job : Datagram} {op : Op}
  {next : op.Answer → Worker Unit}

/-- What a job does for a torrent out of service. -/
theorem discreet (revoked : pool.Revoked host config infoHash since)
    (calls : pool.threads[index]? = some ⟨slot, some (job, .call op next)⟩)
    (named : infoHashText infoHash ∈ job.requested host) : op.Discreet host := by
  rcases (revoked.uncleared.at_index calls named).1 with cleared | discreet
  · cases cleared
  · exact discreet

/-- No answer clears a job. -/
theorem not_cleared (revoked : pool.Revoked host config infoHash since) {choice : Choice}
    (judged : pool.Judged (.step index choice))
    (calls : pool.threads[index]? = some ⟨slot, some (job, .call op next)⟩) :
    Clearance.next config (infoHashText infoHash) false op
      (World.exec op (pool.world slot choice)).1 = false := by
  cases op with
  | redisCommand redis request =>
      cases request with
      | sismember key member =>
          rw [Clearance.next, Bool.false_or]
          by_cases same : key = restrictionKey config config.infoHashRestriction.listName ∧
            member = infoHashText infoHash
          · obtain ⟨rfl, rfl⟩ := same
            have refuses := refuses_of_refused revoked.refused
              (fun message => judged _ _ _ _ _ _ _ _ message rfl calls) choice.listing
            change (_ && !config.infoHashRestriction.refuses (pool.store.deliver choice.delivery
              choice.listing _).1) = false
            rw [refuses, Bool.not_true, Bool.and_false]
          · rw [← Bool.decide_and, decide_eq_false same, Bool.false_and]
      | _ => rfl
  | _ => rfl

/-- No job writes a record of the torrent. -/
theorem unwritten (revoked : pool.Revoked host config infoHash since)
    (conforms : pool.Conforms host config fun _ _ => True) (isSeeder : Bool)
    (peerId : Octets 20) {redis : Context} {request : Redis.Command}
    {next : Option Redis.Reply → Worker Unit}
    (calls : pool.threads[index]? =
      some ⟨slot, some (job, .call (.redisCommand redis request) next)⟩) :
    (KeyName.peer infoHash isSeeder peerId).encode host config ∉ request.writes := by
  intro member
  obtain ⟨conduct, behaves, -⟩ := conforms.behaves calls
  have permitted : conduct.permits host config job (.redisCommand redis request) := behaves.1
  rcases permitted.torrent? member with ⟨-, general⟩ | ⟨announces, announced⟩
  · cases general
  · cases announced
    have named : infoHashText (job.announce host).infoHash ∈ job.requested host := by
      rw [Datagram.requested, announces]
      exact List.mem_singleton_self _
    have readOnly : request.ReadOnly := revoked.discreet calls named
    cases request with
    | setex _ _ _ | del _ | rename _ _ | hincrby _ _ _ => exact readOnly
    | _ => cases member

/-- One action. -/
theorem act (revoked : pool.Revoked host config infoHash since)
    (reached : Reached host config permits schedule pool) (action : Action)
    (judged : pool.Judged action)
    (upheld : ∀ whitelist members, action = .edit whitelist members →
      Refused config (pool.act host config action).store (infoHashText infoHash)) :
    (pool.act host config action).Revoked host config infoHash (since + action.elapsed) := by
  have restricted : config.infoHashRestriction ≠ .none := by
    intro unrestricted
    have refused := revoked.refused
    rw [Refused, unrestricted] at refused
    exact refused
  constructor
  · by_cases edits : ∃ whitelist members, action = .edit whitelist members
    · obtain ⟨whitelist, members, same⟩ := edits
      exact upheld whitelist members same
    · apply refused_congr _ revoked.refused
      exact find?_list_act reached.conforms reached.perpetual
        fun whitelist members same => edits ⟨whitelist, members, same⟩
  · apply revoked.uncleared.changes (changes_act ..)
    · intro job named
      exact btRequestProcessor_clears restricted named
    · intro index slot job op next choice same calls uncleared named
      subst same
      have follows := (uncleared named).2 (World.exec op (pool.world slot choice)).1
      change Follows _ _ (Clearance.next config _ false op _) _ at follows
      rw [revoked.not_cleared judged calls] at follows
      exact follows
  · intro isSeeder peerId entry found
    by_cases waits : ∃ seconds, action = .wait seconds
    · obtain ⟨seconds, rfl⟩ := waits
      rw [act_wait] at found ⊢
      obtain ⟨before, alive⟩ := Redis.Store.find?_of_find?_advance found
      obtain ⟨deadline, lasts, -, soon⟩ := revoked.expires isSeeder peerId entry before
      rw [Redis.Entry.aliveAt, lasts] at alive
      refine ⟨deadline, lasts, of_decide_eq_true alive, ?_⟩
      simp only [Redis.Store.now_advance, Action.elapsed]
      omega
    · have still (seconds : Nat) : action ≠ .wait seconds := fun same => waits ⟨seconds, same⟩
      have instant : action.elapsed = 0 := by
        cases action with
        | wait seconds => exact absurd rfl (still seconds)
        | _ => rfl
      obtain ⟨clock, kept⟩ := find?_act_of_unwritten host config still
        (fun whitelist _ _ => listKey_ne host config id whitelist)
        fun _ _ _ _ _ _ _ _ calls _ => revoked.unwritten reached.conforms isSeeder peerId calls
      rw [kept] at found
      rw [clock, instant, Nat.add_zero]
      exact revoked.expires isSeeder peerId entry found

end Revoked

theorem Revokes.revoked (revokes : Revokes host config infoHash permits schedule pool since) :
    pool.Revoked host config infoHash since := by
  induction revokes with
  | revoke reached refused unconcerned =>
      constructor
      · exact refused
      · intro thread member job program runs named
        exact absurd named (unconcerned thread member job program runs)
      · intro isSeeder peerId entry found
        exact reached.expires found
  | act revokes action possible permitted judged upheld ih =>
      exact ih.act revokes.reached action judged upheld

/-- A torrent that the lists refuse is out of service from the moment on at which no
job for it is left from before: whatever the other threads do and whichever commands
get lost, jobs that ask for it change nothing in the database and send errors only,
and when the time to live of peers has passed there is no record of it left. -/
theorem Revokes.drains (revokes : Revokes host config infoHash permits schedule pool since) :
    (∀ (index : Nat) (slot : Option Context) (job : Datagram) (op : Op)
      (next : op.Answer → Worker Unit),
      pool.threads[index]? = some ⟨slot, some (job, .call op next)⟩ →
        infoHashText infoHash ∈ job.requested host → op.Discreet host) ∧
    (config.peerTtl ≤ since → ∀ isSeeder peerId,
      pool.store.find? ((KeyName.peer infoHash isSeeder peerId).encode host config) = none) := by
  have revoked := revokes.revoked
  refine ⟨fun _ _ _ _ _ calls named => revoked.discreet calls named, fun passed => ?_⟩
  intro isSeeder peerId
  cases found : pool.store.find? ((KeyName.peer infoHash isSeeder peerId).encode host config) with
  | none => rfl
  | some entry =>
      obtain ⟨deadline, -, alive, soon⟩ := revoked.expires isSeeder peerId entry found
      omega

/-- While Redis answers and nobody edits the lists, a torrent stays out of service. -/
theorem Revokes.run (revokes : Revokes host config infoHash (fun _ _ _ => True) schedule pool since)
    {actions : List Action} (possible : pool.possible host config actions = true)
    (answered : ∀ action ∈ actions, Answered action)
    (unedited : ∀ action ∈ actions, ∀ whitelist members, action ≠ .edit whitelist members) :
    Revokes host config infoHash (fun _ _ _ => True) (actions.reverse ++ schedule)
      (pool.run host config actions) (since + (actions.map Action.elapsed).sum) := by
  induction actions generalizing schedule pool since with
  | nil => exact revokes
  | cons action rest ih =>
      have judged : pool.Judged action := by
        intro index choice slot job redis key member next message own _ refused
        rw [answered action (List.mem_cons_self ..) index choice own] at refused
        cases refused
      have upheld (whitelist : Bool) (members : Std.ExtTreeSet Bytes)
          (edit : action = .edit whitelist members) :
          Refused config (pool.act host config action).store (infoHashText infoHash) :=
        absurd edit (unedited action (List.mem_cons_self ..) whitelist members)
      rw [List.reverse_cons, List.append_assoc, List.map_cons, List.sum_cons, ← Nat.add_assoc]
      obtain ⟨now, next⟩ := Bool.and_eq_true_iff.mp possible
      exact ih (revokes.act action now trivial judged upheld) next
        (fun other member => answered other (List.mem_cons_of_mem _ member))
        fun other member => unedited other (List.mem_cons_of_mem _ member)

/-- A tracker that refuses the torrents of a black list. -/
def blacklisting : BtConfig := { BtConfig.shipped with infoHashRestriction := .blacklist }

/-- A seeder announces itself, and its torrent is put on the black list. -/
def withdrawal : List Action :=
  [.spawn, .receive ⟨1, 1⟩ (BtAnnounceReq.sample 0 2).datagram, .take 0] ++
    List.replicate 30 (.step 0 .calm) ++
  [.edit false (Std.ExtTreeSet.empty.insert (infoHashText (BtAnnounceReq.sample 0 2).infoHash))]

/-- A leecher asks in vain, and half an hour passes. -/
def afterwards : List Action :=
  [.receive ⟨6881, 0x0100000a⟩ (BtAnnounceReq.sample 5 2).datagram, .take 0] ++
    List.replicate 30 (.step 0 .calm) ++ [.wait 1920]

/-- The seeder is gone, and the leecher was not filed. -/
theorem drains_blacklisted :
    ((start.run .little blacklisting withdrawal).store.find?
      ((KeyName.peer (BtAnnounceReq.sample 0 2).infoHash true
        (BtAnnounceReq.sample 0 2).peerId).encode .little blacklisting)).isSome = true ∧
    ∀ isSeeder peerId,
      ((start.run .little blacklisting withdrawal).run .little blacklisting afterwards).store.find?
        ((KeyName.peer (BtAnnounceReq.sample 0 2).infoHash isSeeder peerId).encode .little
          blacklisting) = none := by
  have filed : ((start.run .little blacklisting withdrawal).store.find?
      ((KeyName.peer (BtAnnounceReq.sample 0 2).infoHash true
        (BtAnnounceReq.sample 0 2).peerId).encode .little blacklisting)).isSome = true := by
    decide +kernel
  have reached : Reached .little blacklisting (fun _ _ _ => True) (withdrawal.reverse ++ [])
      (start.run .little blacklisting withdrawal) := Reached.run .start _ (by decide +kernel) fun _ _ => trivial
  have refused : refusedBy blacklisting (start.run .little blacklisting withdrawal).store
      (infoHashText (BtAnnounceReq.sample 0 2).infoHash) = true := by decide +kernel
  have idle : ∀ thread ∈ (start.run .little blacklisting withdrawal).threads,
      thread.running.isNone = true := by decide +kernel
  have answered : ∀ action ∈ afterwards, Answered action := by
    intro action member index choice same
    subst same
    simp [afterwards] at member
    rw [member.2]
    rfl
  have unedited : ∀ action ∈ afterwards, ∀ whitelist members,
      action ≠ .edit whitelist members := by
    intro action member whitelist members same
    subst same
    simp [afterwards] at member
  have revokes := Revokes.revoke reached ((refusedBy_iff ..).mp refused) (by
    intro thread member job program runs
    have nothing := idle thread member
    rw [runs] at nothing
    cases nothing)
  exact ⟨filed, (revokes.run (by decide +kernel) answered unedited).drains.2 (by decide)⟩

end Pool

end BtTracker
