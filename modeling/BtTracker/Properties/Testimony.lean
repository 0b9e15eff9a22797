import BtTracker.Correctness.Focus
import BtTracker.Correctness.Jobs
import BtTracker.Correctness.Observers
import BtTracker.Properties.Restriction
import BtTracker.Properties.Vanishing

/-!
# What a response rests on

Between any two operations of a job other threads change the database, so what a job
knows are the replies it got.  Every response tells what these replies said and
nothing else: its counts are lengths of listings, its addresses stand in records under
listed keys, and a scrape has one entry for each torrent, in the order of the request.
-/

namespace BtTracker

open BtTracker.Foundation
open BtTracker.Foundation.Program (Performs Follows)

/-- What a job was told: the commands it has sent and the replies to them, the last one
first. -/
abbrev Testimony := List (Redis.Command × Redis.Reply)

variable (host : Host) (config : BtConfig)

namespace Testimony

def next (told : Testimony) : (op : Op) → op.Answer → Testimony
  | .redisCommand _ request, some reply => (request, reply) :: told
  | _, _ => told

variable (told : Testimony) (infoHashStr : Bytes)

/-- A number of peers, as long as a listing of them. -/
def Counts (isSeeder : Bool) (count : BitVec 32) : Prop :=
  ∃ reply, (.keys (swarmPattern config infoHashStr isSeeder), reply) ∈ told ∧
    count = BitVec.ofNat 32 reply.elements.length

/-- A number of downloads, read from its counter. -/
def Tallies (count : BitVec 32) : Prop :=
  ∃ reply, (.hget (infoHashKey config infoHashStr) (ascii "downs"), reply) ∈ told ∧
    count = reply.str.elim 0 fun text => BitVec.ofInt 32 (Decimal.strtoimax (cString text))

/-- An address, read from the record under a listed key. -/
def Locates (addr : BtPeerAddr) : Prop :=
  ∃ isSeeder elements key reply,
    (.keys (swarmPattern config infoHashStr isSeeder), .array elements) ∈ told ∧
      key ∈ elements ∧ (.get key, reply) ∈ told ∧ readPeerAddr host reply = .done addr

/-- The statistics of a torrent. -/
structure Reports (entry : BtScrapeEntry) : Prop where
  seeders : told.Counts config infoHashStr true entry.seeders
  downloads : told.Tallies config infoHashStr entry.downloads
  leechers : told.Counts config infoHashStr false entry.leechers

/-- A response to a job that rests on what the job was told. -/
inductive Supports (job : Datagram) (data : Block) : Prop where
  | error (transactionId : BitVec 32) (msg : Bytes)
      (equal : data = errorBlock host transactionId msg)
  | connect (connects : job.action host = some .connect)
  | announce (announces : job.action host = some .announce) (header : BtAnnounceResp)
      (peers : List BtPeerAddr)
      (seeders : told.Counts config (infoHashText (job.announce host).infoHash) true
        header.seeders)
      (leechers : told.Counts config (infoHashText (job.announce host).infoHash) false
        header.leechers)
      (located : ∀ addr ∈ peers,
        told.Locates host config (infoHashText (job.announce host).infoHash) addr)
      (equal : data = Block.ofBytes (announceHeader host header ++
        peers.flatMap (peerEntry host)))
  | scrape (scrapes : job.action host = some .scrape) (header : BtScrapeResp)
      (infoHashes : List (Octets 20)) (named : job.requested host = infoHashes.map infoHashText)
      (reports : List.Forall₂ (fun infoHash => told.Reports config (infoHashText infoHash))
        infoHashes header.scrapeEntries)
      (equal : data = Block.ofBytes (scrapeHeader host header ++
        header.scrapeEntries.flatMap (statsEntry host)))

/-- A job sends only what it was told. -/
def protocol (job : Datagram) : Program.Protocol Op Op.Answer Fault Testimony where
  allows told op := ∀ address data, op = .sendto address data →
    told.Supports host config job data
  next := next
  tolerates _ _ := True

variable {host config told infoHashStr} {later : Testimony}

/-- Nothing is forgotten. -/
theorem subset_next (op : Op) (answer : op.Answer) : told ⊆ told.next op answer := by
  cases op with
  | redisCommand redis request =>
      cases answer with
      | none => exact List.Subset.refl _
      | some reply => exact List.subset_cons_self ..
  | _ => exact List.Subset.refl _

theorem Counts.mono {isSeeder : Bool} {count : BitVec 32}
    (counts : told.Counts config infoHashStr isSeeder count) (more : told ⊆ later) :
    later.Counts config infoHashStr isSeeder count := by
  obtain ⟨reply, replied, equal⟩ := counts
  exact ⟨reply, more replied, equal⟩

theorem Locates.mono {addr : BtPeerAddr} (locates : told.Locates host config infoHashStr addr)
    (more : told ⊆ later) : later.Locates host config infoHashStr addr := by
  obtain ⟨isSeeder, elements, key, reply, listed, among, replied, read⟩ := locates
  exact ⟨isSeeder, elements, key, reply, more listed, among, more replied, read⟩

theorem Reports.mono {entry : BtScrapeEntry} (reports : told.Reports config infoHashStr entry)
    (more : told ⊆ later) : later.Reports config infoHashStr entry := by
  obtain ⟨reply, replied, equal⟩ := reports.downloads
  exact ⟨reports.seeders.mono more, ⟨reply, more replied, equal⟩, reports.leechers.mono more⟩

end Testimony

/-- Operations other than sending. -/
def Op.Silent : Op → Prop
  | .sendto .. => False
  | _ => True

variable {host config} {told : Testimony} {job : Datagram} {infoHashStr : Bytes} {α : Type}

theorem Op.Silent.allowed {op : Op} (silent : op.Silent) :
    (Testimony.protocol host config job).allows told op := by
  intro address data equal
  subst equal
  exact silent.elim

/-- A program that sends nothing only learns more. -/
theorem Testimony.follows_of_silent {program : Worker α}
    (silent : Performs Op.Silent (fun _ => True) program) :
    Follows (protocol host config job) (fun _ last => told ⊆ last) told program := by
  induction program generalizing told with
  | done result => exact List.Subset.refl _
  | fault reason => trivial
  | call op next ih =>
      refine ⟨silent.1.allowed, fun answer => ?_⟩
      apply (ih answer (silent.2 answer)).mono
      intro _ last more
      exact List.Subset.trans (subset_next op answer) more

theorem Worker.Observes.silent {program : Worker α} (observes : program.Observes) :
    Performs Op.Silent (fun _ => True) program := by
  apply Performs.mono observes
  · intro op allowed
    cases op with
    | sendto address data => exact allowed.elim
    | _ => trivial
  · intro _ _
    trivial

theorem Worker.Handles.silent {program : Worker α} {redis : Context}
    {sends : Redis.Command → Prop} (handles : Worker.Handles redis sends program) :
    Performs Op.Silent (fun _ => True) program := by
  apply Performs.mono handles
  · intro op allowed
    cases op with
    | sendto address data => exact allowed.elim
    | _ => trivial
  · intro _ _
    trivial

/-! ## Peer lists -/

/-- The peers that were found, and their number. -/
def Testimony.Found (host : Host) (config : BtConfig) (infoHashStr : Bytes) (told : Testimony)
    (result : List BtPeerAddr × Nat) (last : Testimony) : Prop :=
  told ⊆ last ∧ result.1.length = result.2 ∧
    ∀ addr ∈ result.1, last.Locates host config infoHashStr addr

theorem shuffleFrom_learns (elements : List Bytes) (rounds i : Nat) :
    Follows (Testimony.protocol host config job)
      (fun result last => last = told ∧ result ⊆ elements) told
      (shuffleFrom rounds i elements) := by
  induction rounds generalizing i elements with
  | zero => exact ⟨rfl, List.Subset.refl _⟩
  | succ rounds ih =>
      refine ⟨Op.Silent.allowed trivial, fun value => ?_⟩
      change Follows _ _ told (Program.ofOption .elementIndex (swapElements elements i
        (scaleRandom (BitVec.ofNat 32 i) (BitVec.ofNat 32 (elements.length - 1)) value)) >>=
          shuffleFrom rounds (i + 1))
      cases swap : swapElements elements i
          (scaleRandom (BitVec.ofNat 32 i) (BitVec.ofNat 32 (elements.length - 1)) value) with
      | none => trivial
      | some swapped =>
          apply (ih swapped (i + 1)).mono
          intro result last shuffled
          exact ⟨shuffled.1, List.Subset.trans shuffled.2 (swapElements_perm swap).subset⟩

theorem fetchPeers_learns (redis : Context) {isSeeder : Bool} {elements keys : List Bytes}
    (listed : (.keys (swarmPattern config infoHashStr isSeeder), .array elements) ∈ told)
    (subset : keys ⊆ elements) {list : List BtPeerAddr}
    (located : ∀ addr ∈ list, told.Locates host config infoHashStr addr) {count : Nat}
    (counted : list.length = count) :
    Follows (Testimony.protocol host config job) (Testimony.Found host config infoHashStr told)
      told (fetchPeers host (some redis) keys list count) := by
  induction keys generalizing list count told with
  | nil => exact ⟨List.Subset.refl _, counted, located⟩
  | cons key rest ih =>
      rw [List.cons_subset] at subset
      refine ⟨Op.Silent.allowed trivial, fun reply => ?_⟩
      cases reply with
      | none => exact ih listed subset.2 located counted
      | some reply =>
          have more : told ⊆ (.get key, reply) :: told := List.subset_cons_self ..
          change Follows _ _ ((.get key, reply) :: told) (readPeerAddr host reply >>= fun addr =>
            fetchPeers host (some redis) rest (addr :: list) (count + 1))
          rcases readPeerAddr_cases host reply with ⟨addr, read⟩ | failed | failed
          · rw [read, Program.done_bind]
            apply (ih (more listed) subset.2 _ (by rw [List.length_cons, counted])).mono
            · intro result last found
              exact ⟨List.Subset.trans more found.1, found.2⟩
            · intro other member
              rcases List.mem_cons.mp member with rfl | earlier
              · exact ⟨isSeeder, elements, key, reply, more listed, subset.1,
                  List.mem_cons_self .., read⟩
              · exact (located other earlier).mono more
          · rw [failed]
            trivial
          · rw [failed]
            trivial

theorem btPeerList_learns (redis : Context) (numWant : BitVec 32) (seeder : Bool) :
    Follows (Testimony.protocol host config job) (Testimony.Found host config infoHashStr told)
      told (btPeerList host (some redis) config infoHashStr numWant 0 seeder) := by
  have nothing {last : Testimony} (more : told ⊆ last) :
      Testimony.Found host config infoHashStr told ([], 0) last := by
    refine ⟨more, rfl, fun addr member => ?_⟩
    cases member
  refine ⟨Op.Silent.allowed trivial, fun reply => ?_⟩
  cases reply with
  | none => exact nothing (List.Subset.refl _)
  | some reply =>
      have more (reply : Redis.Reply) :
          told ⊆ (.keys (swarmPattern config infoHashStr seeder), reply) :: told :=
        List.subset_cons_self ..
      cases reply with
      | array elements =>
          change Follows _ _ ((.keys (swarmPattern config infoHashStr seeder),
              .array elements) :: told)
            (shuffleFrom (upperIndex elements.length numWant).toNat 0 elements >>=
              fun shuffled => fetchPeers host (some redis) (shuffled.take _) [] 0)
          apply Follows.bind (shuffleFrom_learns elements _ 0)
          intro shuffled last shuffle
          obtain ⟨rfl, subset⟩ := shuffle
          refine (fetchPeers_learns redis (List.mem_cons_self ..)
            (List.Subset.trans (List.take_subset _ _) subset) (List.forall_mem_nil _) rfl).mono ?_
          intro result last found
          exact ⟨List.Subset.trans (more _) found.1, found.2⟩
      | _ => exact nothing (more _)

theorem selectPeers_learns (redis : Context) (numWant : BitVec 32) (isSeeder : Bool) :
    Follows (Testimony.protocol host config job) (Testimony.Found host config infoHashStr told)
      told (selectPeers host (some redis) config infoHashStr numWant isSeeder) := by
  apply Follows.bind (btPeerList_learns redis numWant _)
  intro opposite middle found
  dsimp only
  split
  · apply Follows.bind (btPeerList_learns redis _ _)
    intro siblings last foundToo
    have more := List.Subset.trans found.1 foundToo.1
    have located (addr : BtPeerAddr) (member : addr ∈ opposite.1) :
        last.Locates host config infoHashStr addr := (found.2.2 addr member).mono foundToo.1
    split
    · refine ⟨more, ?_, fun addr member => ?_⟩
      · rw [List.length_append, found.2.1, foundToo.2.1]
      · rcases List.mem_append.mp member with first | second
        · exact located addr first
        · exact foundToo.2.2 addr second
    · exact ⟨more, found.2.1, located⟩
  · exact found

/-! ## Statistics -/

/-- The statistics of a torrent are all assigned, or the job does not survive. -/
theorem btGetTorrentStats_learns (redis : Context) :
    Follows (Testimony.protocol host config job)
      (fun stats last => told ⊆ last ∧ ∃ entry : BtScrapeEntry,
        stats = ⟨some entry.seeders, some entry.downloads, some entry.leechers⟩ ∧
          last.Reports config infoHashStr entry) told
      (btGetTorrentStats (some redis) config infoHashStr .unassigned) := by
  refine ⟨Op.Silent.allowed trivial, fun seeders => ?_⟩
  cases seeders with
  | none => trivial
  | some seeders =>
      refine ⟨Op.Silent.allowed trivial, fun leechers => ?_⟩
      cases leechers with
      | none => trivial
      | some leechers =>
          refine ⟨Op.Silent.allowed trivial, fun downloads => ?_⟩
          cases downloads with
          | none => trivial
          | some downloads =>
              refine ⟨fun _ earlier => List.mem_cons_of_mem _ (List.mem_cons_of_mem _
                (List.mem_cons_of_mem _ earlier)), ⟨_, _, _⟩, rfl, ⟨?_, ?_, ?_⟩⟩
              · exact ⟨seeders, List.mem_cons_of_mem _ (List.mem_cons_of_mem _
                  (List.mem_cons_self ..)), rfl⟩
              · exact ⟨downloads, List.mem_cons_self .., rfl⟩
              · exact ⟨leechers, List.mem_cons_of_mem _ (List.mem_cons_self ..), rfl⟩

theorem scrapeEntry_learns (redis : Context) :
    Follows (Testimony.protocol host config job)
      (fun entry last => told ⊆ last ∧ last.Reports config infoHashStr entry) told
      (scrapeEntry (some redis) config infoHashStr) := by
  apply Follows.bind (btGetTorrentStats_learns redis)
  intro stats last learned
  obtain ⟨more, entry, rfl, reports⟩ := learned
  exact ⟨more, reports⟩

/-! ## Handlers -/

theorem answerAnnounce_learns (redis : Context) (announces : job.action host = some .announce) :
    Follows (Testimony.protocol host config job)
      (fun data last => last.Supports host config job data) told
      (answerAnnounce host (job.request host) config (job.announce host)
        (infoHashText (job.announce host).infoHash) (job.isSeeder host) (some redis)) := by
  apply Follows.bind (selectPeers_learns redis _ _)
  intro selected middle found
  apply Follows.bind (btGetTorrentStats_learns redis)
  intro stats last learned
  obtain ⟨more, entry, rfl, reports⟩ := learned
  change Follows _ _ last (btSerializeAnnounceResponse host _ selected.2 selected.1)
  rw [btSerializeAnnounceResponse_eq _ _ _ _ found.2.1]
  exact .announce announces _ selected.1 reports.seeders reports.leechers
    (fun addr member => (found.2.2 addr member).mono more) rfl

theorem btHandleAnnounce_learns (redis : Context)
    (announces : job.action host = some .announce) :
    Follows (Testimony.protocol host config job)
      (fun response last => ∀ data ∈ response, last.Supports host config job data) told
      (btHandleAnnounce host (job.request host) config job.params.buff job.params.buflen
        job.params.fromAddr (some redis)) := by
  apply Follows.bind (Testimony.follows_of_silent (btValidRequest_observes ..).silent)
  intro valid middle _
  cases valid with
  | false =>
      intro data member
      cases member
  | true =>
      apply Follows.bind (Testimony.follows_of_silent (btInfoHashBlacklisted_observes ..).silent)
      intro refused middle _
      cases refused with
      | true =>
          rw [btSendError_eq]
          intro data member
          cases member
          exact .error _ _ rfl
      | false =>
          apply Follows.bind
            (Testimony.follows_of_silent (btUpdatePeerList_handles host config redis ..).silent)
          intro _ middle _
          apply Follows.bind (answerAnnounce_learns redis announces)
          intro answer last supports data member
          cases member
          exact supports

/-- The entries of a scrape are collected back to front. -/
theorem scrapeLoop_learns (redis : Context) {request : BtScrapeReq}
    (few : request.infoHashLen < 256) (rounds : Nat) (i : BitVec 8)
    (entries : List BtScrapeEntry) :
    Follows (Testimony.protocol host config job)
      (fun result last => told ⊆ last ∧ ∀ collected ∈ result, ∃ infoHashes reported,
        collected = reported.reverse ++ entries ∧
          request.texts.drop i.toNat = infoHashes.map infoHashText ∧
          List.Forall₂ (fun infoHash => last.Reports config (infoHashText infoHash))
            infoHashes reported) told
      (scrapeLoop (some redis) config request rounds i entries) := by
  induction rounds generalizing i entries told with
  | zero => trivial
  | succ rounds ih =>
      rw [scrapeLoop]
      split
      · rename_i more
        rw [request.drop_texts few more, BtScrapeReq.hashAt]
        dsimp only
        split
        · rename_i whole
          obtain ⟨infoHash, same⟩ := exists_ofFn_of_length whole
          rw [Program.pure_eq_done, Program.done_bind, same]
          apply Follows.bind
            (Testimony.follows_of_silent (btInfoHashBlacklisted_observes ..).silent)
          intro refused middle kept
          cases refused with
          | true =>
              refine ⟨kept, fun collected member => ?_⟩
              cases member
          | false =>
              apply Follows.bind (scrapeEntry_learns redis)
              intro entry last learned
              apply (ih (i + 1) (entry :: entries)).mono
              intro result final later
              refine ⟨List.Subset.trans kept (List.Subset.trans learned.1 later.1), ?_⟩
              intro collected member
              obtain ⟨infoHashes, reported, equal, named, reports⟩ := later.2 collected member
              refine ⟨infoHash :: infoHashes, entry :: reported, ?_, ?_,
                .cons (learned.2.mono later.1) reports⟩
              · rw [equal, List.reverse_cons, List.append_assoc]
                rfl
              · rw [named, List.map_cons, infoHashText]
        · trivial
      · rename_i finished
        refine ⟨List.Subset.refl _, fun collected member => ⟨[], [], ?_, ?_, .nil⟩⟩
        · cases member
          rfl
        · exact List.drop_eq_nil_of_le (by simpa [BtScrapeReq.texts] using finished)

theorem btHandleScrape_learns (redis : Context) (scrapes : job.action host = some .scrape) :
    Follows (Testimony.protocol host config job)
      (fun response last => ∀ data ∈ response, last.Supports host config job data) told
      (btHandleScrape host (job.request host) config job.params.buff job.params.buflen
        (some redis)) := by
  apply Follows.bind (Testimony.follows_of_silent (btValidRequest_observes ..).silent)
  intro valid middle _
  cases valid with
  | false =>
      intro data member
      cases member
  | true =>
      cases decoded : btReadScrapeRequestData host job.params.buff job.params.buflen with
      | none => trivial
      | some scrapeRequest =>
          have requested : job.requested host = scrapeRequest.texts := by
            simp only [Datagram.requested, scrapes, decoded]
          change Follows _ _ middle
            (some <$> answerScrape host (job.request host) config scrapeRequest (some redis))
          rw [answerScrape, Program.map_eq_bind, Program.bind_assoc]
          apply Follows.bind (scrapeLoop_learns redis (infoHashLen_lt decoded) 256 0 [])
          intro entries last learned
          cases entries with
          | none =>
              dsimp only
              rw [btSendError_eq]
              intro data member
              cases member
              exact .error _ _ rfl
          | some entries =>
              obtain ⟨infoHashes, reported, rfl, named, reports⟩ := learned.2 entries rfl
              dsimp only
              rw [btSerializeScrapeResponse_eq]
              intro data member
              cases member
              refine .scrape scrapes _ infoHashes (requested.trans named) ?_ rfl
              rw [List.append_nil, List.reverse_reverse]
              exact reports

/-- Every response rests on what the job was told. -/
theorem btRequestProcessor_learns :
    Follows (Testimony.protocol host config job) (fun _ _ => True) told
      (btRequestProcessor host config job.params) := by
  have responds {response : Option Block} {last : Testimony}
      (supports : ∀ data ∈ response, last.Supports host config job data) :
      Follows (Testimony.protocol host config job) (fun _ _ => True) last
        (respond job.params response) := by
    cases response with
    | none => trivial
    | some data =>
        refine ⟨?_, fun _ => trivial⟩
        intro address other equal
        cases equal
        exact supports data rfl
  have handled (redis : Context) (middle : Testimony) :
      Follows (Testimony.protocol host config job)
        (fun response last => ∀ data ∈ response, last.Supports host config job data) middle
        (dispatch host config job.params (job.request host) none (some redis)) := by
    cases action : job.action host with
    | none =>
        rw [dispatch, ← Datagram.action, action]
        intro data member
        cases member
    | some kind =>
        cases kind with
        | connect =>
            refine (Testimony.follows_of_silent (dispatch_handles ..).silent).mono ?_
            intro response last _ data member
            exact .connect action
        | announce =>
            rw [dispatch, ← Datagram.action, action]
            exact btHandleAnnounce_learns redis action
        | scrape =>
            rw [dispatch, ← Datagram.action, action]
            exact btHandleScrape_learns redis action
        | error =>
            rw [dispatch, ← Datagram.action, action]
            trivial
  rw [btRequestProcessor_eq]
  apply Follows.bind (Testimony.follows_of_silent (acquireRedis_observes config).silent)
  intro redis middle _
  cases redis with
  | none =>
      rw [Ledger.answerWith_none]
      apply responds
      intro data member
      cases member
      exact .error _ _ rfl
  | some redis => exact Follows.bind (handled redis middle) fun _ _ supports => responds supports

end BtTracker
