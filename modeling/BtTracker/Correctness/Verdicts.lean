import BtTracker.Correctness.Answer
import BtTracker.Correctness.Calls
import BtTracker.Correctness.Scrapes
import BtTracker.Foundation.Environment

/-!
# Questions about info hashes

The restriction is checked by asking Redis for members of a set.  Here Redis may
give any reply whatsoever to such a question, and everything else goes on as
usual.  The trace of a job tells what it has asked and which replies it got.
-/

namespace BtTracker

open BtTracker.Foundation

/-! ## Questions and replies -/

/-- A question for a member of a set, with the reply it got. -/
structure Verdict where
  key : Bytes
  member : Bytes
  reply : Option Redis.Reply
  deriving DecidableEq

/-- The questions a job has asked so far. -/
def World.verdicts (world : World) : List Verdict :=
  world.trace.filterMap fun
    | (.sismember key member, reply) => some ⟨key, member, reply⟩
    | _ => none

/-- What may follow an operation: a question for a member of a set gets any reply
at all, everything else happens as it always does. -/
def World.Replies (world : World) (op : Op) (answer : op.Answer) (after : World) : Prop :=
  World.exec op world = (answer, after) ∨
    match op, answer with
    | .redisCommand _ (.sismember key member), reply =>
        after = { world.tick with
          trace := world.trace ++ [(.sismember key member, reply)] }
    | _, _ => False

/-- The info hashes of a scrape, in the order in which they are looked up. -/
def BtScrapeReq.texts (request : BtScrapeReq) : List Bytes :=
  (List.range request.infoHashLen).map fun i =>
    cString (btBytearrayToHexarray ((request.infoHash.drop (i * 20)).take 20))

theorem BtScrapeReq.texts_eq (request : BtScrapeReq) : request.texts =
    request.hashes.map fun infoHash => cString (btBytearrayToHexarray infoHash) := by
  rw [hashes, List.map_map]
  rfl

/-- The texts from the one at an index on. -/
theorem BtScrapeReq.drop_texts (request : BtScrapeReq) (few : request.infoHashLen < 256)
    {i : BitVec 8} (more : i.toNat < request.infoHashLen) :
    request.texts.drop i.toNat =
      cString (btBytearrayToHexarray ((request.infoHash.drop (i.toNat * 20)).take 20)) ::
        request.texts.drop (i + 1).toNat := by
  rw [BtScrapeReq.texts_eq, ← List.map_drop, BtScrapeReq.drop_hashes more, List.map_cons,
    List.map_drop, toNat_succ_of_lt few more]

/-- A question about an info hash, and the reply it got. -/
def Asks (config : BtConfig) (text : Bytes) (verdict : Verdict) : Prop :=
  verdict.key = restrictionKey config config.infoHashRestriction.listName ∧ verdict.member = text

/-! ## Operations -/

namespace World.Replies

variable {world after : World} {op : Op} {answer : op.Answer}

theorem of_observes (replied : world.Replies op answer after) (observes : op.Observes) :
    after.store = world.store ∧ after.sent = world.sent := by
  rcases replied with executed | questioned
  · have kept := exec_of_observes observes world
    rw [executed] at kept
    exact kept
  · split at questioned
    · rw [questioned]
      exact ⟨rfl, rfl⟩
    · exact questioned.elim

theorem executed (replied : world.Replies op answer after)
    (other : ∀ redis key member, op ≠ .redisCommand redis (.sismember key member)) :
    exec op world = (answer, after) := by
  rcases replied with executed | questioned
  · exact executed
  · split at questioned
    · exact absurd rfl (other _ _ _)
    · exact questioned.elim

/-- Only `sendto` sends. -/
theorem sent_eq (replied : world.Replies op answer after)
    (silent : ∀ address data, op ≠ .sendto address data) : after.sent = world.sent := by
  rcases replied with executed | questioned
  · cases op with
    | sendto address data => exact absurd rfl (silent address data)
    | _ =>
        cases executed
        rfl
  · split at questioned
    · rw [questioned]
      rfl
    · exact questioned.elim

theorem verdicts_eq (replied : world.Replies op answer after)
    (other : ∀ redis key member, op ≠ .redisCommand redis (.sismember key member)) :
    after.verdicts = world.verdicts := by
  have executed := replied.executed other
  cases op with
  | redisCommand redis request =>
      have logged : after.trace = world.trace ++ [(request, answer)] := by
        cases executed
        rfl
      rw [verdicts, logged, List.filterMap_append, ← verdicts]
      cases request with
      | sismember key member => exact absurd rfl (other redis key member)
      | _ => exact List.append_nil _
  | _ =>
      cases executed
      rfl

/-- A question leaves a verdict. -/
theorem of_sismember {redis : Context} {key member : Bytes} {reply : Option Redis.Reply}
    (replied : world.Replies (.redisCommand redis (.sismember key member)) reply after) :
    after.store = world.store ∧ after.sent = world.sent ∧
      after.verdicts = world.verdicts ++ [⟨key, member, reply⟩] := by
  obtain ⟨store, sent⟩ := replied.of_observes trivial
  refine ⟨store, sent, ?_⟩
  rcases replied with executed | questioned
  · cases executed
    simp [verdicts]
  · rw [questioned]
    simp [verdicts]

end World.Replies

/-- The database is as before, nothing was sent, and these are the questions. -/
structure World.Calm (world : World) (verdicts : List Verdict) (after : World) : Prop where
  store : after.store = world.store
  sent : after.sent = []
  verdicts : after.verdicts = verdicts

section Programs

variable {α : Type} {world ready : World} {verdicts : List Verdict}

open World (Replies Calm)
open BtTracker.Foundation.Program (Ensures Performs)

/-- Looking without asking keeps everything. -/
theorem Calm.ensures {allowed : Op → Prop} {tolerated : Fault → Prop} {program : Worker α}
    (performs : Performs allowed tolerated program)
    (quiet : ∀ op, allowed op → op.Observes ∧
      ∀ redis key member, op ≠ .redisCommand redis (.sismember key member))
    (calm : world.Calm verdicts ready) :
    Ensures Replies (fun outcome last => world.Calm verdicts last ∧
      ∀ reason, outcome = .error reason → tolerated reason) program ready := by
  refine performs.ensures ?_ calm
  intro state op answer last allowed kept replied
  obtain ⟨observes, other⟩ := quiet op allowed
  obtain ⟨store, sent⟩ := replied.of_observes observes
  exact ⟨store.trans kept.store, sent.trans kept.sent,
    (replied.verdicts_eq other).trans kept.verdicts⟩

theorem Worker.Handles.ensures {redis : Context} {program : Worker α}
    (handles : Handles redis Redis.Command.Looks program) (calm : world.Calm verdicts ready) :
    Ensures Replies (fun _ last => world.Calm verdicts last) program ready := by
  refine (Calm.ensures handles (fun op allowed => ?_) calm).mono fun _ _ kept => kept.1
  cases op with
  | redisCommand context request =>
      obtain ⟨-, looks⟩ := allowed
      cases request <;> first | exact looks.elim | exact ⟨trivial, nofun⟩
  | rand | malloc | loadSockaddr address => exact ⟨trivial, nofun⟩
  | _ => exact allowed.elim

/-- Updating the peer list sends nothing and asks nothing. -/
theorem btUpdatePeerList_ensures (host : Host) (config : BtConfig) (redis : Context)
    (request : BtAnnounceReq) (clientAddr : SockaddrPtr) (text : Bytes) (isSeeder : Bool)
    (calm : world.Calm verdicts ready) :
    Ensures Replies (fun _ last => last.Calm verdicts last)
      (btUpdatePeerList host (some redis) config request clientAddr text isSeeder) ready := by
  have step (state : World) (op : Op) (answer : op.Answer) (last : World)
      (allowed : op.Handles redis fun request => ¬request.ReadOnly)
      (kept : state.sent = [] ∧ state.verdicts = verdicts)
      (replied : state.Replies op answer last) : last.sent = [] ∧ last.verdicts = verdicts := by
    constructor
    · rw [replied.sent_eq ?_, kept.1]
      rintro address data rfl
      exact allowed
    · rw [replied.verdicts_eq ?_, kept.2]
      rintro context key member rfl
      exact allowed.2 trivial
  have handles := btUpdatePeerList_handles host config redis request clientAddr text isSeeder
  refine (Performs.ensures handles step ⟨calm.sent, calm.verdicts⟩).mono ?_
  exact fun _ _ kept => ⟨rfl, kept.1.1, kept.1.2⟩

/-- A connection is acquired before anything is asked. -/
theorem acquireRedis_ensures (config : BtConfig) (calm : world.Calm verdicts ready) :
    Ensures Replies (fun outcome last => world.Calm verdicts last ∧
      ∀ reason, outcome = .error reason → False) (acquireRedis config) ready := by
  refine Calm.ensures (acquireRedis_connects config) (fun op allowed => ?_) calm
  cases op with
  | redisCommand context request =>
      cases request <;> first | exact allowed.elim | exact ⟨trivial, nofun⟩
  | rand | loadSockaddr address | sendto address data => exact allowed.elim
  | _ => exact ⟨trivial, nofun⟩

theorem btInfoHashBlacklisted_ensures {config : BtConfig} {redis : Context}
    (restricted : config.infoHashRestriction ≠ .none) (text : Bytes)
    (calm : world.Calm verdicts ready) :
    Ensures Replies (fun outcome last => ∃ verdict, Asks config text verdict ∧
      world.Calm (verdicts ++ [verdict]) last ∧
      outcome = .ok (config.infoHashRestriction.refuses verdict.reply))
      (btInfoHashBlacklisted (some redis) config text) ready := by
  rw [btInfoHashBlacklisted_eq restricted]
  intro reply last replied
  obtain ⟨store, sent, logged⟩ := replied.of_sismember
  rw [calm.verdicts] at logged
  exact ⟨⟨_, text, reply⟩, ⟨rfl, rfl⟩,
    ⟨store.trans calm.store, sent.trans calm.sent, logged⟩, rfl⟩

/-- The response is sent, and that is all. -/
theorem respond_ensures (params : BtJobParams) (data : Block) (ready : World) :
    Ensures Replies (fun outcome last => outcome = .ok () ∧ last.store = ready.store ∧
      last.verdicts = ready.verdicts ∧ ∃ address, last.sent = ready.sent ++ [(address, data)])
      (respond params (some data)) ready := by
  intro answer last replied
  cases replied.executed nofun
  exact ⟨rfl, rfl, rfl, _, rfl⟩

/-- A question that did not make the request fail. -/
def Passes (config : BtConfig) (text : Bytes) (verdict : Verdict) : Prop :=
  Asks config text verdict ∧ config.infoHashRestriction.refuses verdict.reply = false

/-- The loop of a scrape ends as soon as an info hash is refused; if none is, it
has asked for all of them. -/
theorem scrapeLoop_ensures {config : BtConfig} {redis : Context}
    (restricted : config.infoHashRestriction ≠ .none) {request : BtScrapeReq}
    (few : request.infoHashLen < 256) (rounds : Nat) (i : BitVec 8) (entries : List BtScrapeEntry)
    (calm : world.Calm verdicts ready) :
    Ensures Replies (fun outcome last => ∃ asked, world.Calm (verdicts ++ asked) last ∧
        (outcome = .ok none → ∃ verdict ∈ asked,
          config.infoHashRestriction.refuses verdict.reply = true) ∧
        ∀ result, outcome = .ok (some result) →
          List.Forall₂ (Passes config) (request.texts.drop i.toNat) asked)
      (scrapeLoop (some redis) config request rounds i entries) ready := by
  have nothing : world.Calm (verdicts ++ []) ready := by
    rw [List.append_nil]
    exact calm
  induction rounds generalizing i entries verdicts ready with
  | zero => exact ⟨[], nothing, by simp, by simp⟩
  | succ rounds ih =>
      rw [scrapeLoop]
      split
      · rename_i more
        have texts := request.drop_texts few more
        rw [BtScrapeReq.hashAt]
        dsimp only
        split
        · rw [Program.pure_eq_done, Program.done_bind]
          refine .bind (btInfoHashBlacklisted_ensures restricted _ calm) ?_ ?_
          · rintro refused last ⟨verdict, asks, asked, judged⟩
            cases judged
            cases refuses : config.infoHashRestriction.refuses verdict.reply with
            | true =>
                exact ⟨[verdict], asked, fun _ => ⟨verdict, List.mem_singleton_self _, refuses⟩,
                  by simp⟩
            | false =>
                refine .bind ((scrapeEntry_handles config redis _).ensures asked) ?_ ?_
                · intro stats middle calm
                  refine (ih (i + 1) _ calm (by rw [List.append_nil]; exact calm)).mono ?_
                  rintro outcome last ⟨later, calm, ended, passed⟩
                  rw [List.append_assoc] at calm
                  refine ⟨verdict :: later, calm, fun equal => ?_, fun result equal => ?_⟩
                  · obtain ⟨other, member, refused⟩ := ended equal
                    exact ⟨other, List.mem_cons_of_mem _ member, refused⟩
                  · rw [texts]
                    exact .cons ⟨asks, refuses⟩ (passed result equal)
                · exact fun reason middle calm => ⟨[verdict], calm, by simp, by simp⟩
          · rintro reason last ⟨verdict, asks, asked, judged⟩
            cases judged
        · exact ⟨[], nothing, by simp, by simp⟩
      · rename_i finished
        refine ⟨[], nothing, by simp, fun result _ => ?_⟩
        rw [List.drop_eq_nil_of_le (by simpa [BtScrapeReq.texts] using finished)]
        exact .nil

/-- What a lookup returns in any world, it returns here. -/
theorem Worker.Handles.ensures_returns {redis : Context} {program : Worker α} {post : α → Prop}
    (handles : Handles redis Redis.Command.Looks program) (returns : Worker.Returns program post) :
    Ensures Replies (fun outcome _ => ∀ result, outcome = .ok result → post result)
      program ready := by
  refine .of_runs fun outcome last ran result equal => ?_
  subst equal
  have answers (state : World) (op : Op) (answer : op.Answer) (last : World)
      (allowed : op.Handles redis Redis.Command.Looks) (replied : state.Replies op answer last) :
      World.exec op state = (answer, last) := by
    refine replied.executed ?_
    rintro context key member rfl
    exact allowed.2
  exact (returns ready trivial result last (Performs.run_eq handles answers ran) trivial).1

end Programs

end BtTracker
