import BtTracker.Correctness.Observers
import BtTracker.Correctness.Wire

/-!
# How an announce is answered

While nobody writes and no error is taken for a record, every address in the answer
to an announce is read from a record whose key was listed for the torrent, and the
counter agrees with the list of addresses.
-/

namespace BtTracker

open BtTracker.Foundation
open BtTracker.Foundation.Program (Promise)

variable {host : Host} {config : BtConfig} {store : Redis.Store} {redis : Option Context}

/-- A `GET` and an error in reply. -/
def isMisread : Redis.Command × Option Redis.Reply → Bool
  | (.get _, some reply) => reply.isError
  | _ => false

/-- No `GET` of the datagram was answered with an error. -/
def World.Honest (world : World) : Prop :=
  ∀ exchange ∈ world.trace, isMisread exchange = false

instance (world : World) : Decidable world.Honest :=
  inferInstanceAs (Decidable (∀ exchange ∈ world.trace, isMisread exchange = false))

theorem World.promise_honest : Promise World.exec World.Honest := by
  intro op world honest exchange member
  cases op with
  | redisCommand redis request => exact honest exchange (List.mem_append_left _ member)
  | _ => exact honest exchange member

/-- What a program returns in front of a database. -/
abbrev Worker.Yields {α : Type} (store : Redis.Store) (program : Worker α) (post : α → Prop) :
    Prop :=
  Program.Yields World.exec World.Honest (fun world => world.store = store) program post

open Worker (Yields)

namespace Worker.Yields

variable {α β : Type} {program : Worker α} {post : α → Prop}

theorem bind {rest : α → Worker β} {last : β → Prop} (first : Yields store program post)
    (second : ∀ result, post result → Yields store (rest result) last) :
    Yields store (program >>= rest) last :=
  Program.Yields.bind World.promise_honest first second

end Worker.Yields

/-- What may come back for a question: nothing, an error, unless it is a `GET`, or the
answer of the database. -/
inductive Answers (store : Redis.Store) (request : Redis.Command) : Option Redis.Reply → Prop where
  | lost : Answers store request none
  | refused (text : Bytes) (other : ∀ key, request ≠ .get key) :
      Answers store request (some (.error text))
  | given (listing : Redis.Listing) : Answers store request (some (store.exec listing request).1)

theorem redisCommand_yields {request : Redis.Command} (readOnly : request.ReadOnly) :
    Yields store (redisCommand redis request) (Answers store request) := by
  cases redis with
  | none => exact .fault _
  | some redis =>
      refine .perform fun world faces honest => ⟨?_, ?_⟩
      · have told := honest
        simp only [World.exec, World.command] at told ⊢
        subst faces
        cases delivery : (world.choices 0).delivery with
        | normal => exact .given _
        | refused text =>
            refine .refused text ?_
            rintro key rfl
            rw [delivery] at told
            have misread := told _ (List.mem_append_right _ (List.mem_singleton_self _))
            cases misread
        | unsent | unanswered => exact .lost
      · have observes : (Op.redisCommand redis request).Observes := readOnly
        exact (World.exec_of_observes observes world).1.trans faces

/-- Looking around leaves the database as it was. -/
theorem Worker.Observes.yields {α : Type} {program : Worker α} (observes : program.Observes) :
    Yields store program fun _ => True := by
  intro world faces result after returned _
  have kept := (World.run_of_observes observes world).1
  rw [World.run, returned] at kept
  exact ⟨trivial, kept.trans faces⟩

/-- The shuffle only rearranges. -/
theorem shuffleFrom_yields (rounds i : Nat) (elements : List Bytes) :
    Yields store (shuffleFrom rounds i elements) (· ⊆ elements) := by
  induction rounds generalizing i elements with
  | zero => exact .done (List.Subset.refl _)
  | succ rounds ih =>
      have drawn : Yields store rand fun _ => True :=
        .perform fun world faces _ => ⟨trivial, faces⟩
      have swapped (j : BitVec 32) : Yields store
          (.ofOption .elementIndex (swapElements elements i j)) (· ⊆ elements) :=
        .ofOption fun _ swap => (swapElements_perm swap).subset
      refine Yields.bind (Yields.bind drawn fun _ _ => .done trivial) fun j (_ : True) => ?_
      refine Yields.bind (swapped j) fun shuffled subset => (ih (i + 1) shuffled).mono ?_
      exact fun result smaller => List.Subset.trans smaller subset

/-! ## Peer lists -/

section PeerLists

variable (host) (store)

/-- Under a key there is the record of a peer whose address has a property. -/
def HoldsPeer (genuine : BtPeerAddr → Prop) (key : Bytes) : Prop :=
  ∃ peer expiresAt, store.find? key = some ⟨.string (BtPeer.image host peer), expiresAt⟩ ∧
    genuine (btNewPeerAddr peer.ipv4Addr peer.port)

/-- A list of addresses with a property, and its length. -/
def Collected (genuine : BtPeerAddr → Prop) (result : List BtPeerAddr × Nat) : Prop :=
  (∀ addr ∈ result.1, genuine addr) ∧ result.1.length = result.2

variable {host store} {genuine : BtPeerAddr → Prop}

/-- The loop reads one record after the other. -/
theorem fetchPeers_yields {keys : List Bytes}
    (records : ∀ key ∈ keys, HoldsPeer host store genuine key) {list : List BtPeerAddr}
    {count : Nat} (collected : Collected genuine (list, count)) :
    Yields store (fetchPeers host redis keys list count) (Collected genuine) := by
  induction keys generalizing list count with
  | nil => exact .done collected
  | cons key rest ih =>
      have others := fun other member => records other (List.mem_cons_of_mem key member)
      obtain ⟨peer, expiresAt, found, holds⟩ := records key (List.mem_cons_self ..)
      have read (listing : Redis.Listing) :
          (store.exec listing (.get key)).1 = .string (peer.image host) := by
        simp only [Redis.Store.exec, found]
      refine Yields.bind (redisCommand_yields trivial) fun reply answered => ?_
      cases answered with
      | lost => exact ih others collected
      | refused text other => exact absurd rfl (other key)
      | given listing =>
          dsimp only
          rw [read, readPeerAddr_image, Program.done_bind]
          refine ih others ⟨?_, congrArg (· + 1) collected.2⟩
          intro addr member
          rcases List.mem_cons.mp member with rfl | earlier
          · exact holds
          · exact collected.1 addr earlier

/-- A peer list is read from the keys that were listed. -/
theorem btPeerList_yields {infoHashStr : Bytes} {seeder : Bool}
    (records : ∀ key, store.find? key ≠ none →
      Glob.isMatch (swarmPrefix config infoHashStr seeder ++ ascii "*") key = true →
        HoldsPeer host store genuine key) (numWant : BitVec 32) :
    Yields store (btPeerList host redis config infoHashStr numWant 0 seeder)
      (Collected genuine) := by
  have empty : Collected genuine ([], 0) := ⟨fun _ member => (nomatch member), rfl⟩
  refine Yields.bind (redisCommand_yields trivial) fun reply answered => ?_
  cases answered with
  | lost | refused text other => exact .done empty
  | given listing =>
      cases replied : (store.exec listing
          (.keys (swarmPrefix config infoHashStr seeder ++ ascii "*"))).1 with
      | array elements =>
          refine Yields.bind (shuffleFrom_yields _ 0 elements) fun shuffled subset => ?_
          refine fetchPeers_yields (fun key member => ?_) empty
          obtain ⟨exists_, accepted⟩ :=
            Redis.Store.mem_of_exec_keys replied (subset (List.mem_of_mem_take member))
          exact records key exists_ accepted
      | _ => exact .done empty

/-- Opposite role first, siblings to fill the gap. -/
theorem selectPeers_yields {infoHashStr : Bytes}
    (records : ∀ seeder key, store.find? key ≠ none →
      Glob.isMatch (swarmPrefix config infoHashStr seeder ++ ascii "*") key = true →
        HoldsPeer host store genuine key) (numWant : BitVec 32) (isSeeder : Bool) :
    Yields store (selectPeers host redis config infoHashStr numWant isSeeder)
      (Collected genuine) := by
  refine Yields.bind (btPeerList_yields (records _) numWant) ?_
  rintro ⟨peers, peerCount⟩ collected
  dsimp only
  split
  · refine Yields.bind (btPeerList_yields (records _) _) ?_
    rintro ⟨complement, complementCount⟩ siblings
    dsimp only
    split
    · refine .done ⟨fun addr member => ?_, ?_⟩
      · exact (List.mem_append.mp member).elim (collected.1 addr) (siblings.1 addr)
      · exact List.length_append.trans (congrArg₂ (· + ·) collected.2 siblings.2)
    · exact .done collected
  · exact .done collected

/-- The answer to an announce is a header and the addresses that were selected. -/
theorem answerAnnounce_yields {infoHashStr : Bytes}
    (records : ∀ seeder key, store.find? key ≠ none →
      Glob.isMatch (swarmPrefix config infoHashStr seeder ++ ascii "*") key = true →
        HoldsPeer host store genuine key) (request : BtReq) (announceRequest : BtAnnounceReq)
    (isSeeder : Bool) :
    Yields store
      (answerAnnounce host request config announceRequest infoHashStr isSeeder redis)
      fun data => ∃ (resp : BtAnnounceResp) (peers : List BtPeerAddr),
        (∀ addr ∈ peers, genuine addr) ∧
        data = Block.ofBytes (announceHeader host resp ++ peers.flatMap (peerEntry host)) := by
  refine Yields.bind (selectPeers_yields records _ isSeeder) ?_
  rintro ⟨peers, peerCount⟩ collected
  have statistics : Worker.Browses (fun _ => False)
      (btGetTorrentStats redis config infoHashStr .unassigned) := btGetTorrentStats_browses ..
  refine .bind statistics.observes.yields fun stats _ => ?_
  have assigned (counter : Option (BitVec 32)) : Yields store
      (.ofOption .unassigned counter) fun _ => True := .ofOption fun _ _ => trivial
  refine Yields.bind (assigned _) fun leechers _ => Yields.bind (assigned _) fun seeders _ => ?_
  rw [btSerializeAnnounceResponse_eq host _ peerCount peers collected.2]
  exact .done ⟨_, peers, collected.1, rfl⟩

end PeerLists

/-! ## Whatever Redis answers -/

/-- What a program returns in any world. -/
abbrev Worker.Returns {α : Type} (program : Worker α) (post : α → Prop) : Prop :=
  Program.Yields World.exec (fun _ => True) (fun _ => True) program post

open Worker (Returns)

theorem Worker.Returns.bind {α β : Type} {program : Worker α} {post : α → Prop}
    {rest : α → Worker β} {last : β → Prop} (first : Returns program post)
    (second : ∀ result, post result → Returns (rest result) last) :
    Returns (program >>= rest) last :=
  Program.Yields.bind (fun _ _ => id) first second

section Anywhere

variable (host config redis)

theorem Worker.returns {α : Type} (program : Worker α) : Returns program fun _ => True :=
  fun _ _ _ _ _ _ => ⟨trivial, trivial⟩

/-- The counter follows the list. -/
theorem fetchPeers_returns (keys : List Bytes) {list : List BtPeerAddr} {count : Nat}
    (counted : list.length = count) :
    Returns (fetchPeers host redis keys list count) fun result =>
      result.1.length = result.2 := by
  induction keys generalizing list count with
  | nil => exact .done counted
  | cons key rest ih =>
      refine Returns.bind (Worker.returns _) fun reply _ => ?_
      cases reply with
      | none => exact ih counted
      | some reply =>
          exact Returns.bind (Worker.returns _) fun addr _ => ih (congrArg (· + 1) counted)

theorem btPeerList_returns (infoHashStr : Bytes) (numWant : BitVec 32) (seeder : Bool) :
    Returns (btPeerList host redis config infoHashStr numWant 0 seeder) fun result =>
      result.1.length = result.2 := by
  refine Returns.bind (Worker.returns _) fun reply _ => ?_
  cases reply with
  | none => exact .done rfl
  | some reply =>
      cases reply with
      | array elements =>
          exact Returns.bind (Worker.returns _) fun shuffled _ => fetchPeers_returns host redis _ rfl
      | _ => exact .done rfl

theorem selectPeers_returns (infoHashStr : Bytes) (numWant : BitVec 32) (isSeeder : Bool) :
    Returns (selectPeers host redis config infoHashStr numWant isSeeder) fun result =>
      result.1.length = result.2 := by
  refine Returns.bind (btPeerList_returns host config redis infoHashStr numWant _) ?_
  rintro ⟨peers, peerCount⟩ counted
  dsimp only
  split
  · refine Returns.bind (btPeerList_returns host config redis infoHashStr _ _) ?_
    rintro ⟨complement, complementCount⟩ siblings
    dsimp only
    split
    · exact .done (List.length_append.trans (congrArg₂ (· + ·) counted siblings))
    · exact .done counted
  · exact .done counted

/-- The answer to an announce starts with the header of its request. -/
theorem answerAnnounce_returns (request : BtReq) (announceRequest : BtAnnounceReq)
    (infoHashStr : Bytes) (isSeeder : Bool) :
    Returns (answerAnnounce host request config announceRequest infoHashStr isSeeder redis)
      fun data => ∃ (resp : BtAnnounceResp) (peers : List BtPeerAddr),
        resp.action = request.action ∧ resp.transactionId = request.transactionId ∧
        data = Block.ofBytes (announceHeader host resp ++ peers.flatMap (peerEntry host)) := by
  refine Returns.bind (selectPeers_returns host config redis infoHashStr _ isSeeder) ?_
  rintro ⟨peers, peerCount⟩ counted
  refine Returns.bind (Worker.returns _) fun stats _ => ?_
  refine Returns.bind (Worker.returns _) fun leechers _ => Returns.bind (Worker.returns _) fun seeders _ => ?_
  rw [btSerializeAnnounceResponse_eq host _ peerCount peers counted]
  exact .done ⟨_, peers, rfl, rfl, rfl⟩

/-- A scrape is answered with an error or with the header of its request. -/
theorem answerScrape_returns (request : BtReq) (scrapeRequest : BtScrapeReq) :
    Returns (answerScrape host request config scrapeRequest redis) fun data =>
      (∃ msg, data = errorBlock host request.transactionId msg) ∨
        ∃ resp : BtScrapeResp, resp.action = request.action ∧
          resp.transactionId = request.transactionId ∧
          data = Block.ofBytes (scrapeHeader host resp ++
            resp.scrapeEntries.flatMap (statsEntry host)) := by
  refine Returns.bind (Worker.returns _) fun entries _ => ?_
  cases entries with
  | none =>
      dsimp only
      rw [btSendError_eq]
      exact .done (.inl ⟨_, rfl⟩)
  | some entries =>
      dsimp only
      rw [btSerializeScrapeResponse_eq]
      exact .done (.inr ⟨_, rfl, rfl, rfl⟩)

end Anywhere

end BtTracker
