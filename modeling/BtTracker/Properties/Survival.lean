import BtTracker.Correctness.PeerLists
import BtTracker.Properties.Scrapes
import BtTracker.Correctness.Effort

/-!
# Which datagrams crash the tracker

A fault of a worker takes the whole tracker down.  While Redis answers, there are
three ways to it: the action word of an error, a scrape whose length does not fit
the member its info hashes are copied to, and an index drawn outside of a listing.
What the database holds afterwards is what the datagram was meant to do to it.
-/

namespace BtTracker

open BtTracker.Foundation

variable (host : Host) (config : BtConfig) (world : World) (arrival : Arrival)

/-- The datagram is an announce that is long enough and not refused. -/
structure Datagram.Announces (datagram : Datagram) (store : Redis.Store) : Prop where
  action : datagram.action host = some .announce
  long : 20 ≤ datagram.params.buflen
  permitted : refusedBy config store (infoHashText (datagram.announce host).infoHash) = false

/-- Every index drawn for the answer lies within the listing it is drawn for. -/
def World.DrawsWell : Prop :=
  let store := arrival.update host config (world.residue host config arrival) world.store
  (world.updated host config arrival).2.DrawsWithin (arrival.oppositeKeys host config store)
    (arrival.siblingKeys host config store) (arrival.wanted host config)

/-- A datagram that a worker gets through. -/
structure World.Endures : Prop where
  explained : arrival.action host ≠ some .error
  scrapes : arrival.action host = some .scrape →
    arrival.params.buflen < 8 ∨ (16 ≤ arrival.params.buflen ∧ arrival.params.buflen ≤ 176)
  draws : arrival.Announces host config world.store → world.DrawsWell host config arrival

variable {host config world arrival} {history : List Served}

namespace World

/-! ## Who gets in -/

/-- In a database of the tracker, the question for an identifier is never answered
with an error. -/
theorem not_isError_get (reached : Reachable host config world history)
    (connectionId : BitVec 64) :
    (world.store.exec .sorted (.get (connectionKey host config connectionId))).1.isError =
      false := by
  cases found : world.store.find? (connectionKey host config connectionId) with
  | none =>
      simp only [Redis.Store.exec, found]
      rfl
  | some entry =>
      have notList : ¬(KeyName.connection connectionId).IsList := id
      obtain ⟨served, -, -, -, rfl, -⟩ := reached.filed notList found
      simp only [Redis.Store.exec, found]
      rfl

/-- So a request is accepted exactly if it is long enough. -/
theorem accepted_iff (reached : Reachable host config world history)
    (linked : world.Linked config arrival) (normal : arrival.Normal)
    (kind : arrival.action host = some .announce ∨ arrival.action host = some .scrape) :
    world.Accepted host config arrival ↔ ¬arrival.TooShort host := by
  constructor
  · intro accepted short
    have rejected : (world.validated host config arrival).1 = .ok false :=
      validated_of_tooShort short
    rw [accepted.2] at rejected
    cases rejected
  · intro long
    refine ⟨linked, ?_⟩
    rw [validated_of_normal linked normal kind long, Datagram.connectionKey,
      not_isError_get reached]
    rfl

theorem admitted_iff (reached : Reachable host config world history)
    (linked : world.Linked config arrival) (normal : arrival.Normal) :
    world.Admitted host config arrival ↔ arrival.Announces host config world.store := by
  have screened : (world.screened host config arrival).1 = .ok (refusedBy config world.store
      (infoHashText (arrival.announce host).infoHash)) := screened_of_normal linked normal
  constructor
  · intro admitted
    have long := (accepted_iff reached linked normal (.inl admitted.action)).mp admitted.accepted
    refine ⟨admitted.action, ?_, ?_⟩
    · by_contra short
      exact long (.inl ⟨admitted.action, Nat.not_le.mp short⟩)
    · have permitted := admitted.permitted
      rw [screened] at permitted
      exact Except.ok.inj permitted
  · intro announces
    have long : ¬arrival.TooShort host := by
      intro short
      rcases short with ⟨_, short⟩ | ⟨scrape, _⟩
      · exact absurd announces.long (Nat.not_le.mpr short)
      · rw [announces.action] at scrape
        cases scrape
    refine ⟨announces.action,
      (accepted_iff reached linked normal (.inl announces.action)).mpr long, ?_⟩
    rw [screened]
    exact congrArg Except.ok announces.permitted

/-! ## Scrapes -/

/-- The rounds of a scrape end, whatever is scraped. -/
theorem Normal.exists_run_scrapeEach {world : World} (normal : world.Normal) (config : BtConfig)
    (redis : Context) (hashes : List Bytes) (entries : List BtScrapeEntry) :
    ∃ result, (world.run (scrapeEach (some redis) config hashes entries)).1 = .ok result := by
  induction hashes generalizing entries world with
  | nil => exact ⟨_, rfl⟩
  | cons hash rest ih =>
      rw [scrapeEach]
      have asked := normal.run_btInfoHashBlacklisted config redis
        (cString (btBytearrayToHexarray hash))
      have ready := normal.run
        (btInfoHashBlacklisted (some redis) config (cString (btBytearrayToHexarray hash)))
      rw [run_bind_of_ok (Prod.ext asked rfl)]
      split
      · exact ⟨_, rfl⟩
      · have found := ready.run_scrapeEntry config redis (cString (btBytearrayToHexarray hash))
        rw [run_bind_of_ok (Prod.ext found rfl)]
        exact ih (ready.run _) _

variable (config) in
/-- A scrape that was read is answered. -/
theorem Normal.exists_run_answerScrape (normal : world.Normal) (request : BtReq)
    {buff : RecvBuffer} {buflen : Nat} {scrapeRequest : BtScrapeReq}
    (read : btReadScrapeRequestData host buff buflen = some scrapeRequest) (redis : Context) :
    ∃ data, (world.run (answerScrape host request config scrapeRequest (some redis))).1 =
      .ok data := by
  obtain ⟨result, looped⟩ := normal.exists_run_scrapeEach config redis scrapeRequest.hashes []
  rw [answerScrape, scrapeLoop_of_read host config (some redis) read,
    run_bind_of_ok (Prod.ext looped rfl)]
  cases result with
  | none =>
      rw [btSendError_eq]
      exact ⟨_, rfl⟩
  | some entries =>
      dsimp only
      rw [btSerializeScrapeResponse_eq]
      exact ⟨_, rfl⟩

/-- A job that has an answer sends it and ends. -/
theorem run_answer_respond_iff {program : Worker Block} (params : BtJobParams) (world : World) :
    (world.run ((some <$> program) >>= respond params)).1 = .ok () ↔
      ∃ data, (world.run program).1 = .ok data := by
  cases result : world.run program with
  | mk outcome after =>
      cases outcome with
      | ok data =>
          have mapped : world.run (some <$> program) = (.ok (some data), after) := by
            rw [Program.map_eq_bind, run_bind_of_ok result]
            rfl
          rw [(run_bind_respond params mapped).1]
          exact ⟨fun _ => ⟨data, rfl⟩, fun _ => rfl⟩
      | error reason =>
          have mapped : world.run (some <$> program) = (.error reason, after) := by
            rw [Program.map_eq_bind, run_bind_of_error result]
          rw [run_bind_of_error mapped]
          simp

/-- An admitted announce is answered if and only if the draws are good. -/
theorem serve_admitted_iff (reached : Reachable host config world history) (plain : config.Plain)
    (normal : arrival.Normal) (admitted : world.Admitted host config arrival) :
    (world.serve host config arrival).1 = .ok () ↔ world.DrawsWell host config arrival := by
  have linked := admitted.accepted.1
  have stored := world.store_updated_of_normal host config arrival linked normal
  have recorded (isSeeder : Bool) := (reached.serve arrival).recorded plain
    (arrival.announce host).infoHash isSeeder
  rw [world.store_serve_of_admitted_normal host config arrival admitted normal, ← stored]
    at recorded
  have ready := world.updated_normal host config arrival normal
  obtain ⟨redis, context⟩ := Option.isSome_iff_exists.mp linked
  rw [world.serve_of_admitted host config arrival admitted, run_answer_respond_iff, context,
    DrawsWell, ← stored]
  constructor
  · intro answered
    obtain ⟨data, answered⟩ := answered
    by_contra outside
    obtain ⟨reason, failed⟩ := ready.run_answerAnnounce_of_not_gathers redis rfl rfl
      (arrival.request host) (arrival.announce host) (mt Gathers.drawsWithin outside)
    rw [failed] at answered
    cases answered
  · intro draws
    obtain ⟨peers, complement, answered, -⟩ := ready.run_answerAnnounce redis rfl rfl
      (arrival.request host) (arrival.announce host)
      (.of_recorded (recorded _) (recorded _) draws)
    exact ⟨_, answered⟩

/-- An accepted scrape is answered if and only if its info hashes fit. -/
theorem serve_scraped_iff (normal : arrival.Normal) (action : arrival.action host = some .scrape)
    (accepted : world.Accepted host config arrival) :
    (world.serve host config arrival).1 = .ok () ↔
      16 ≤ arrival.params.buflen ∧ arrival.params.buflen ≤ 176 := by
  have ready := world.validated_normal host config arrival normal
  obtain ⟨redis, context⟩ := Option.isSome_iff_exists.mp accepted.1
  rw [world.serve_of_scraped host config arrival action accepted, run_answer_respond_iff, context]
  by_cases fits : 16 ≤ arrival.params.buflen ∧ arrival.params.buflen ≤ 176
  · have bounded := arrival.params.buflen_le
    obtain ⟨decoded, read, -⟩ := exists_btReadScrapeRequestData host arrival.params.buff fits.1
      fits.2 (by omega)
    rw [read, Program.ofOption_some, Program.done_bind]
    have answered := ready.exists_run_answerScrape config (arrival.request host) read redis
    exact iff_of_true answered fits
  · rw [btReadScrapeRequestData_eq_none arrival.params.buff arrival.params.buflen_le fits]
    simp [fits, Program.ofOption_none]

/-! ## What a worker gets through -/

/-- What is neither an error, nor a scrape that is read, nor an announce that is let in. -/
theorem endures_of_idle (explained : arrival.action host ≠ some .error)
    (notScrape : arrival.action host = some .scrape → arrival.params.buflen < 8)
    (notAdmitted : ¬arrival.Announces host config world.store) :
    world.Endures host config arrival where
  explained := explained
  scrapes := fun scrape => .inl (notScrape scrape)
  draws := fun announces => absurd announces notAdmitted

theorem endures_of_rejected (reached : Reachable host config world history)
    (normal : arrival.Normal) (linked : world.Linked config arrival)
    (rejected : (world.validated host config arrival).1 = .ok false)
    (harmless : arrival.action host ≠ some .error) : world.Endures host config arrival := by
  have notAccepted : ¬world.Accepted host config arrival := by
    intro accepted
    rw [accepted.2] at rejected
    cases rejected
  apply endures_of_idle harmless
  · intro scrape
    rw [accepted_iff reached linked normal (.inr scrape), not_not] at notAccepted
    rcases notAccepted with ⟨announce, _⟩ | ⟨_, short⟩
    · rw [scrape] at announce
      cases announce
    · exact short
  · intro announces
    exact notAccepted ((admitted_iff reached linked normal).mpr announces).accepted

theorem endures_of_connected (connected : world.Connected host config arrival) :
    world.Endures host config arrival := by
  apply endures_of_idle
  · simp [connected.action]
  · simp [connected.action]
  · intro announces
    have announce := announces.action
    rw [connected.action] at announce
    cases announce

theorem endures_of_refused (reached : Reachable host config world history)
    (normal : arrival.Normal) (action : arrival.action host = some .announce)
    (accepted : world.Accepted host config arrival)
    (refused : (world.screened host config arrival).1 = .ok true) :
    world.Endures host config arrival := by
  apply endures_of_idle
  · simp [action]
  · simp [action]
  · intro announces
    have permitted := ((admitted_iff reached accepted.1 normal).mpr announces).permitted
    rw [refused] at permitted
    cases permitted

theorem endures_iff_of_admitted (reached : Reachable host config world history)
    (normal : arrival.Normal) (admitted : world.Admitted host config arrival) :
    world.Endures host config arrival ↔ world.DrawsWell host config arrival := by
  constructor
  · intro endures
    exact endures.draws ((admitted_iff reached admitted.accepted.1 normal).mp admitted)
  · intro draws
    exact {
      explained := by simp [admitted.action]
      scrapes := by simp [admitted.action]
      draws := fun _ => draws }

theorem endures_iff_of_scraped (reached : Reachable host config world history)
    (normal : arrival.Normal) (action : arrival.action host = some .scrape)
    (accepted : world.Accepted host config arrival) :
    world.Endures host config arrival ↔
      16 ≤ arrival.params.buflen ∧ arrival.params.buflen ≤ 176 := by
  have long := (accepted_iff reached accepted.1 normal (.inr action)).mp accepted
  have notShort : ¬arrival.params.buflen < 8 := fun short => long (.inr ⟨action, short⟩)
  constructor
  · intro endures
    exact (endures.scrapes action).resolve_left notShort
  · intro fits
    refine ⟨by simp [action], fun _ => .inr fits, fun announces => ?_⟩
    have announce := announces.action
    rw [action] at announce
    cases announce

/-! ## What is left after a crash -/

/-- There is no response, and the database is as if the datagram had been handled. -/
def Unanswered (host : Host) (config : BtConfig) (world : World) (arrival : Arrival) : Prop :=
  (world.serve host config arrival).2.sent = [] ∧
    (world.serve host config arrival).2.store =
      if arrival.action host = some .announce then
        arrival.update host config (world.residue host config arrival) world.store
      else world.store

theorem unanswered_of_error (linked : world.Linked config arrival)
    (action : arrival.action host = some .error) : Unanswered host config world arrival := by
  rw [Unanswered, serve_of_error host config world arrival linked action]
  simp [action]

theorem unanswered_of_admitted (normal : arrival.Normal)
    (admitted : world.Admitted host config arrival)
    (outside : ¬world.DrawsWell host config arrival) : Unanswered host config world arrival := by
  constructor
  · exact sent_of_not_gathers admitted normal rfl (mt Gathers.drawsWithin outside)
  · rw [world.store_serve_of_admitted_normal host config arrival admitted normal,
      if_pos admitted.action]

theorem unanswered_of_scraped (action : arrival.action host = some .scrape)
    (accepted : world.Accepted host config arrival)
    (unread : ¬(16 ≤ arrival.params.buflen ∧ arrival.params.buflen ≤ 176)) :
    Unanswered host config world arrival := by
  have notAnnounce : arrival.action host ≠ some .announce := by simp [action]
  constructor
  · rw [serve_of_scraped host config world arrival action accepted,
      btReadScrapeRequestData_eq_none arrival.params.buff arrival.params.buflen_le unread]
    exact validated_sent host config world arrival
  · rw [if_neg notAnnounce]
    exact store_serve_of_scrape host config world arrival accepted.1 action

end World

/-! ## Every datagram -/

/-- While Redis answers, a datagram is handled to the end if and only if it is one
that a worker gets through, or there is no connection to Redis to begin with.  One
that is not leaves no response, and the database as if it had been handled. -/
theorem World.serve_ok_iff (reached : Reachable host config world history) (plain : config.Plain)
    (normal : arrival.Normal) :
    ((world.serve host config arrival).1 = .ok () ↔
      (world.RedisWorks arrival → world.Endures host config arrival)) ∧
    ((world.serve host config arrival).1 ≠ .ok () →
      (world.serve host config arrival).2.sent = [] ∧
      (world.serve host config arrival).2.store =
        if arrival.action host = some .announce then
          arrival.update host config (world.residue host config arrival) world.store
        else world.store) := by
  have works := world.linked_iff config arrival
  cases world.route host config arrival with
  | unlinked context =>
      have ended := (serve_of_unlinked host config world arrival context).1
      have notLinked : ¬world.Linked config arrival := by simp [Linked, context]
      have vacuous : world.RedisWorks arrival → world.Endures host config arrival :=
        fun linked => absurd (works.mpr linked) notLinked
      exact ⟨iff_of_true ended vacuous, absurd ended⟩
  | unexplained linked action =>
      have crashed : (world.serve host config arrival).1 ≠ .ok () := by
        rw [serve_of_error host config world arrival linked action]
        simp
      refine ⟨iff_of_false crashed fun endures => ?_, fun _ => unanswered_of_error linked action⟩
      exact (endures (works.mp linked)).explained action
  | rejected linked rejected harmless =>
      have ended := (serve_of_rejected host config world arrival linked rejected harmless).1
      have endures := endures_of_rejected reached normal linked rejected harmless
      exact ⟨iff_of_true ended fun _ => endures, absurd ended⟩
  | connected connected =>
      have ended := (serve_of_connected host config world arrival connected).1
      exact ⟨iff_of_true ended fun _ => endures_of_connected connected, absurd ended⟩
  | refused action accepted refused =>
      have ended := (serve_of_refused host config world arrival action accepted refused).1
      have endures := endures_of_refused reached normal action accepted refused
      exact ⟨iff_of_true ended fun _ => endures, absurd ended⟩
  | admitted admitted =>
      have iff := serve_admitted_iff reached plain normal admitted
      constructor
      · rw [iff, endures_iff_of_admitted reached normal admitted]
        exact ⟨fun draws _ => draws, fun draws => draws (works.mp admitted.accepted.1)⟩
      · intro crashed
        exact unanswered_of_admitted normal admitted (mt iff.mpr crashed)
  | scraped action accepted =>
      have iff := serve_scraped_iff normal action accepted
      constructor
      · rw [iff, endures_iff_of_scraped reached normal action accepted]
        exact ⟨fun fits _ => fits, fun fits => fits (works.mp accepted.1)⟩
      · intro crashed
        exact unanswered_of_scraped action accepted (mt iff.mpr crashed)

/-- Nine info hashes in one scrape end the tracker. -/
theorem World.serve_ok_nine :
    (World.start.serve .little .shipped (.calm ⟨1, 1⟩ (scrapeDatagram 9))).1 ≠ .ok () ∧
    (World.start.serve .little .shipped (.calm ⟨1, 1⟩ (scrapeDatagram 9))).2.sent = [] := by
  have plain : BtConfig.shipped.Plain := by decide +kernel
  have linked : World.start.Linked .shipped (.calm ⟨1, 1⟩ (scrapeDatagram 9)) := by
    decide +kernel
  have fresh : Reachable .little .shipped World.start [] := .fresh
  have normal : (Arrival.calm ⟨1, 1⟩ (scrapeDatagram 9)).Normal := fun _ => rfl
  obtain ⟨iff, crash⟩ := World.serve_ok_iff fresh plain normal
  have crashes : (World.start.serve .little .shipped
      (.calm ⟨1, 1⟩ (scrapeDatagram 9))).1 ≠ .ok () := by
    intro ended
    have fits := (iff.mp ended ((World.linked_iff ..).mp linked)).scrapes (by decide +kernel)
    have length : (Arrival.calm ⟨1, 1⟩ (scrapeDatagram 9)).params.buflen = 196 := by
      decide +kernel
    omega
  exact ⟨crashes, (crash crashes).1⟩

end BtTracker
