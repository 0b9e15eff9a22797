import BtTracker.Correctness.Swarm
import BtTracker.Correctness.Screening

/-!
# The loop of a scrape

The loop of `bt_handle_scrape` counts with eight bits and reads its info hashes
through a cast.  For any request that fits the receive buffer it is the plain loop
over the info hashes that were received, and while Redis answers normally the plain
loop either finds one that is refused or collects the statistics of all of them.
-/

namespace BtTracker

open BtTracker.Foundation

variable {config : BtConfig} {world : World}

/-! ## One round for each info hash -/

/-- The info hashes of a scrape, in the order in which they are looked up. -/
def BtScrapeReq.hashes (request : BtScrapeReq) : List Bytes :=
  (List.range request.infoHashLen).map fun i => (request.infoHash.drop (i * 20)).take 20

@[simp] theorem BtScrapeReq.length_hashes (request : BtScrapeReq) :
    request.hashes.length = request.infoHashLen := by
  simp [hashes]

theorem BtScrapeReq.drop_hashes {request : BtScrapeReq} {i : Nat}
    (inside : i < request.infoHashLen) :
    request.hashes.drop i =
      (request.infoHash.drop (i * 20)).take 20 :: request.hashes.drop (i + 1) := by
  rw [hashes, List.drop_eq_getElem_cons (by simpa using inside)]
  simp

/-- The counter of the loop does not wrap before it has reached its bound. -/
theorem toNat_succ_of_lt {i : BitVec 8} {bound : Nat} (few : bound < 256)
    (more : i.toNat < bound) : (i + 1).toNat = i.toNat + 1 := by
  have one : (1 : BitVec 8).toNat = 1 := rfl
  rw [BitVec.toNat_add, one]
  omega

/-- One round for each info hash, in order, and none after a refusal. -/
def scrapeEach (redis : Option Context) (config : BtConfig) :
    List Bytes → List BtScrapeEntry → Worker (Option (List BtScrapeEntry))
  | [], entries => pure (some entries)
  | infoHash :: rest, entries => do
      let infoHashStr := cString (btBytearrayToHexarray infoHash)
      if ← btInfoHashBlacklisted redis config infoHashStr then
        pure none
      else
        let stats ← scrapeEntry redis config infoHashStr
        scrapeEach redis config rest (stats :: entries)

section Loop

variable {request : BtScrapeReq} (few : request.infoHashLen < 256)
  (held : request.infoHashLen * 20 ≤ request.infoHash.length)

include held in
theorem BtScrapeReq.hashAt_eq {i : Nat} (inside : i < request.infoHashLen) :
    request.hashAt i = .done ((request.infoHash.drop (i * 20)).take 20) := by
  have whole : ((request.infoHash.drop (i * 20)).take 20).length = 20 := by
    rw [List.length_take, List.length_drop]
    omega
  rw [hashAt, if_pos whole]
  rfl

include few held in
/-- From any round on, the counter has not wrapped and the remaining rounds are
those of the remaining info hashes. -/
theorem scrapeLoop_eq_drop (redis : Option Context) (rounds : Nat) (i : BitVec 8)
    (entries : List BtScrapeEntry) (before : i.toNat ≤ request.infoHashLen)
    (enough : request.infoHashLen < i.toNat + rounds) :
    scrapeLoop redis config request rounds i entries =
      scrapeEach redis config (request.hashes.drop i.toNat) entries := by
  induction rounds generalizing i entries with
  | zero => omega
  | succ rounds ih =>
      rw [scrapeLoop]
      split
      · rename_i more
        have next := toNat_succ_of_lt few more
        rw [BtScrapeReq.hashAt_eq held more, Program.done_bind, BtScrapeReq.drop_hashes more,
          scrapeEach, ← next]
        dsimp only
        congr 1
        funext refused
        cases refused with
        | true => rfl
        | false =>
            simp only [Bool.false_eq_true, if_false]
            congr 1
            funext stats
            exact ih (i + 1) _ (by omega) (by omega)
      · rename_i finished
        rw [List.drop_eq_nil_of_le (by rw [BtScrapeReq.length_hashes]; omega)]
        rfl

include few held in
/-- The loop of `bt_handle_scrape` goes once through the info hashes. -/
theorem scrapeLoop_eq (redis : Option Context) :
    scrapeLoop redis config request 256 0 [] = scrapeEach redis config request.hashes [] :=
  scrapeLoop_eq_drop few held redis 256 0 [] (Nat.zero_le _) (by simpa using few)

end Loop

/-- A decoded request with these info hashes, one after the other. -/
structure BtScrapeReq.Holds (request : BtScrapeReq) (hashes : List (Octets 20)) : Prop where
  counted : request.infoHashLen = hashes.length
  copied : hashes.flatMap List.ofFn <+: request.infoHash

namespace BtScrapeReq.Holds

variable {request : BtScrapeReq} {hashes : List (Octets 20)} (holds : request.Holds hashes)

include holds in
theorem length_le : request.infoHashLen * 20 ≤ request.infoHash.length := by
  have long := holds.copied.length_le
  simpa [List.length_flatMap, holds.counted] using long

include holds in
theorem hashes_eq : request.hashes = hashes.map List.ofFn := by
  obtain ⟨rest, copied⟩ := holds.copied
  apply List.ext_getElem
  · simp [holds.counted]
  · intro k left right
    have inside : k < hashes.length := by simpa using right
    simp only [BtScrapeReq.hashes, List.getElem_map, List.getElem_range, ← copied]
    exact take_drop_flatMap (fun hash => List.length_ofFn) inside rest

end BtScrapeReq.Holds

/-! ## While Redis answers normally -/

/-- The statistics of a torrent as a scrape sends them. -/
def torrentEntry (config : BtConfig) (store : Redis.Store) (infoHashStr : Bytes) :
    BtScrapeEntry where
  seeders := BitVec.ofNat 32
    (store.keys.filter (Glob.isMatch (swarmPattern config infoHashStr true))).length
  downloads := ((store.exec .sorted
    (.hget (infoHashKey config infoHashStr) (ascii "downs"))).1.str).elim 0 fun text =>
      BitVec.ofInt 32 (Decimal.strtoimax (cString text))
  leechers := BitVec.ofNat 32
    (store.keys.filter (Glob.isMatch (swarmPattern config infoHashStr false))).length

/-- An info hash is refused for missing on the white list, or for standing on the
black list.  A key that holds no set at all refuses nothing. -/
def Refused (config : BtConfig) (store : Redis.Store) (infoHashStr : Bytes) : Prop :=
  match config.infoHashRestriction with
  | .none => False
  | .whitelist => ∃ members ∈ store.setAt (restrictionKey config (ascii "wl")),
      infoHashStr ∉ members
  | .blacklist => ∃ members ∈ store.setAt (restrictionKey config (ascii "bl")),
      infoHashStr ∈ members

theorem refusedBy_iff (config : BtConfig) (store : Redis.Store) (infoHashStr : Bytes) :
    refusedBy config store infoHashStr = true ↔ Refused config store infoHashStr := by
  rw [refusedBy, Refused]
  cases config.infoHashRestriction with
  | none => simp [BtRestriction.refuses]
  | whitelist | blacklist =>
      simp only [BtRestriction.listName, Redis.Store.exec, Redis.Store.setAt]
      split
      · simp [BtRestriction.refuses]
      · rename_i members expiresAt found
        by_cases member : infoHashStr ∈ members <;> simp [BtRestriction.refuses, member]
      · simp [BtRestriction.refuses, Redis.Store.wrongType]

namespace World

theorem Normal.run_scrapeEntry (normal : world.Normal) (config : BtConfig) (redis : Context)
    (infoHashStr : Bytes) :
    (world.run (scrapeEntry (some redis) config infoHashStr)).1 =
      .ok (torrentEntry config world.store infoHashStr) := by
  have statistics : (world.run (btGetTorrentStats (some redis) config infoHashStr .unassigned)).1 =
      .ok (torrentStats config world.store infoHashStr) :=
    normal.run_btGetTorrentStats redis infoHashStr .unassigned
  rw [scrapeEntry, run_bind_of_ok (Prod.ext statistics rfl)]
  rfl

/-- The entries are collected back to front, unless an info hash is refused. -/
theorem Normal.run_scrapeEach {world : World} (normal : world.Normal) (config : BtConfig)
    (redis : Context) (hashes : List (Octets 20)) (entries : List BtScrapeEntry) :
    (world.run (scrapeEach (some redis) config (hashes.map List.ofFn) entries)).1 =
      .ok (if hashes.any fun hash => refusedBy config world.store (infoHashText hash) then none
        else some ((hashes.map fun hash =>
          torrentEntry config world.store (infoHashText hash)).reverse ++ entries)) := by
  induction hashes generalizing entries world with
  | nil => rfl
  | cons hash rest ih =>
      let asking := btInfoHashBlacklisted (some redis) config (infoHashText hash)
      let looking := scrapeEntry (some redis) config (infoHashText hash)
      have asked : (world.run asking).1 = .ok (refusedBy config world.store (infoHashText hash)) :=
        normal.run_btInfoHashBlacklisted config redis (infoHashText hash)
      have kept : (world.run asking).2.store = world.store :=
        (run_of_observes (btInfoHashBlacklisted_observes ..) world).1
      have ready : (world.run asking).2.Normal := normal.run asking
      rw [List.map_cons, scrapeEach, ← infoHashText, run_bind_of_ok (Prod.ext asked rfl),
        List.any_cons]
      cases refused : refusedBy config world.store (infoHashText hash) with
      | true => rfl
      | false =>
          have found : ((world.run asking).2.run looking).1 =
              .ok (torrentEntry config world.store (infoHashText hash)) := by
            rw [ready.run_scrapeEntry, kept]
          have keptToo : ((world.run asking).2.run looking).2.store = world.store := by
            rw [(run_of_observes (scrapeEntry_observes ..) _).1, kept]
          simp only [Bool.false_eq_true, if_false]
          rw [run_bind_of_ok (Prod.ext found rfl), ih (ready.run looking), keptToo]
          simp

end World

end BtTracker
