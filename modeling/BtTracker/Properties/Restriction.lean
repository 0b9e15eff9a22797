import BtTracker.Correctness.Reach
import BtTracker.Correctness.Verdicts
import BtTracker.Properties.Echo

/-!
# The restriction of info hashes

An operator restricts the tracker to the info hashes of one set, or excludes
those of another.  `bt_info_hash_blacklisted` refuses when Redis does not reply
at all, but any reply that is not an integer counts as a permission, so the
restriction holds only as long as Redis keeps to the replies it documents.
-/

namespace BtTracker

open BtTracker.Foundation

namespace BtRestriction

/-- The reply that permits an info hash: it is a member of the whitelist, or not
a member of the blacklist. -/
def favourable : BtRestriction → Option Redis.Reply
  | .whitelist => some (.integer 1)
  | .blacklist => some (.integer 0)
  | .none => Option.none

end BtRestriction

/-- No reply, or one of the integers `SISMEMBER` is documented to reply. -/
def Verdict.Conclusive (verdict : Verdict) : Prop :=
  verdict.reply = none ∨ verdict.reply = some (.integer 0) ∨ verdict.reply = some (.integer 1)

instance (verdict : Verdict) : Decidable verdict.Conclusive := inferInstanceAs (Decidable (_ ∨ _))

/-- The info hashes a datagram asks for. -/
def Datagram.requested (host : Host) (datagram : Datagram) : List Bytes :=
  match datagram.action host with
  | some .announce => [infoHashText (datagram.announce host).infoHash]
  | some .scrape =>
      match btReadScrapeRequestData host datagram.params.buff datagram.params.buflen with
      | some request => request.texts
      | none => []
  | _ => []

section Property

variable (host : Host) (config : BtConfig)

/-- The request is turned away: the database is as before, and what was sent is
an error.  A job that has asked Redis and does not crash sends one. -/
structure TurnedAway (world : World) (outcome : Except Fault Unit) (after : World) : Prop where
  store : after.store = world.store
  errors : ∀ response ∈ after.sent, response.2.take 4 = Block.ofBytes [0, 0, 0, 3]
  answered : outcome = .ok () → after.verdicts ≠ [] → after.sent ≠ []

/-- Unless Redis has replied for every info hash of the request that the
restriction permits it, the request is turned away. -/
def FailsClosed (world : World) (datagram : Datagram) (outcome : Except Fault Unit)
    (after : World) : Prop :=
  List.Forall₂ (fun text verdict => Asks config text verdict ∧
      verdict.reply = config.infoHashRestriction.favourable)
    (datagram.requested host) after.verdicts ∨ TurnedAway world outcome after

/-- Redis gave only replies that `SISMEMBER` is documented to give, or one of its
replies made the request fail. -/
def Guarded (after : World) : Prop :=
  (∃ verdict ∈ after.verdicts, config.infoHashRestriction.refuses verdict.reply = true) ∨
    ∀ verdict ∈ after.verdicts, verdict.Conclusive

end Property

/-! ## Handlers -/

section Handlers

open World (Replies Calm)
open BtTracker.Foundation.Program (Ensures)

variable (host : Host) (config : BtConfig) (world : World) (datagram : Datagram)

/-- Whether a block reports an error. -/
def ReportsError (data : Block) : Prop := data.take 4 = Block.ofBytes [0, 0, 0, 3]

/-- What a handler may have done with a request when it returns. -/
inductive Handled (outcome : Except Fault (Option Block)) (last : World) : Prop where
  | away {verdicts : List Verdict} {response : Option Block} (calm : world.Calm verdicts last)
      (returned : outcome = .ok response) (errors : ∀ data ∈ response, ReportsError data)
      (reason : verdicts ≠ [] → response ≠ none ∧ ∃ verdict ∈ verdicts,
        config.infoHashRestriction.refuses verdict.reply = true)
  | crashed {verdicts : List Verdict} {reason : Fault} (calm : world.Calm verdicts last)
      (failed : outcome = .error reason)
  | admitted (sent : last.sent = [])
      (passed : List.Forall₂ (Passes config) (datagram.requested host) last.verdicts)
      (served : ∀ response, outcome = .ok response →
        ∃ data, response = some data ∧ ¬ReportsError data)

/-- What has become of a request when its job has ended. -/
inductive Screened (outcome : Except Fault Unit) (after : World) : Prop where
  | away (turned : TurnedAway world outcome after)
      (reason : outcome = .ok () → after.verdicts ≠ [] → ∃ verdict ∈ after.verdicts,
        config.infoHashRestriction.refuses verdict.reply = true)
  | admitted (passed : List.Forall₂ (Passes config) (datagram.requested host) after.verdicts)
      (served : outcome = .ok () → ∃ response ∈ after.sent, ¬ReportsError response.2)

variable {host config world datagram}

/-- The response of a handler is sent. -/
theorem Handled.respond {handler : Worker (Option Block)} {ready : World}
    (handled : Ensures Replies (Handled host config world datagram) handler ready) :
    Ensures Replies (Screened host config world datagram)
      (handler >>= BtTracker.respond datagram.params) ready := by
  refine .bind handled ?_ ?_
  · intro response last handled
    cases handled with
    | away calm returned errors reason =>
        cases returned
        cases response with
        | none =>
            refine .away ⟨calm.store, ?_, ?_⟩ ?_
            · rw [calm.sent]
              exact nofun
            · intro _ asked
              rw [calm.verdicts] at asked
              exact absurd rfl (reason asked).1
            · intro _ asked
              rw [calm.verdicts] at asked
              exact absurd rfl (reason asked).1
        | some data =>
            refine (respond_ensures datagram.params data last).mono ?_
            rintro outcome after ⟨rfl, store, verdicts, address, sent⟩
            rw [calm.verdicts] at verdicts
            rw [calm.sent, List.nil_append] at sent
            refine .away ⟨store.trans calm.store, ?_, ?_⟩ ?_
            · rw [sent]
              intro response member
              cases List.mem_singleton.mp member
              exact errors data rfl
            · simp [sent]
            · rw [verdicts]
              exact fun _ asked => (reason asked).2
    | crashed calm failed => cases failed
    | admitted sent passed served =>
        obtain ⟨data, rfl, noError⟩ := served response rfl
        refine (respond_ensures datagram.params data last).mono ?_
        rintro outcome after ⟨rfl, store, verdicts, address, sent'⟩
        refine .admitted (verdicts ▸ passed) fun _ => ⟨(address, data), ?_, noError⟩
        simp [sent']
  · intro reason last handled
    cases handled with
    | away calm returned errors reason => cases returned
    | crashed calm failed =>
        refine .away ⟨calm.store, ?_, nofun⟩ nofun
        rw [calm.sent]
        exact nofun
    | admitted sent passed served => exact .admitted passed nofun

/-- An error ends the request. -/
theorem Handled.of_error {verdicts : List Verdict} {last : World}
    (calm : world.Calm verdicts last) (transactionId : BitVec 32) (msg : Bytes)
    (reason : verdicts ≠ [] → ∃ verdict ∈ verdicts,
      config.infoHashRestriction.refuses verdict.reply = true) :
    Handled host config world datagram (.ok (some (errorBlock host transactionId msg))) last := by
  refine .away calm rfl ?_ fun asked => ⟨nofun, reason asked⟩
  rintro data member
  cases member
  exact (errorBlock_headed host transactionId msg).take_eq

/-- An action other than an error is not taken for one. -/
theorem not_reportsError {action : BtAction} {word transactionId : BitVec 32} {data : Block}
    (headed : Headed word transactionId data) (known : word = action.toWord)
    (other : action ≠ .error) : ¬ReportsError data := by
  intro error
  subst known
  have words := Block.ofBytes_injective (headed.take_eq.symm.trans error)
  cases action with
  | error => exact other rfl
  | connect | announce | scrape => exact absurd words (by decide)

/-- Once the peer list is updated, there are peers to return. -/
theorem answerAnnounce_ensures (action : datagram.action host = some .announce) (redis : Context)
    {verdicts : List Verdict} {updated : World}
    (passed : List.Forall₂ (Passes config) (datagram.requested host) verdicts)
    (calm : updated.Calm verdicts updated) :
    Ensures Replies (Handled host config world datagram)
      (some <$> answerAnnounce host (datagram.request host) config (datagram.announce host)
        (infoHashText (datagram.announce host).infoHash) (datagram.isSeeder host) (some redis))
      updated := by
  have handles := answerAnnounce_handles host config redis (datagram.request host)
    (datagram.announce host) (infoHashText (datagram.announce host).infoHash)
    (datagram.isSeeder host)
  have returns := answerAnnounce_returns host config (some redis) (datagram.request host)
    (datagram.announce host) (infoHashText (datagram.announce host).infoHash)
    (datagram.isSeeder host)
  have word := BtAction.ofWord?_eq_some.mp action
  refine .bind ((handles.ensures calm).both (handles.ensures_returns returns)) ?_ ?_
  · rintro data last ⟨calm, answered⟩
    refine .admitted calm.sent (calm.verdicts ▸ passed) ?_
    intro response returned
    cases returned
    obtain ⟨resp, peers, sameAction, _, rfl⟩ := answered data rfl
    have headed := announceHeader_headed host resp (peers.flatMap (peerEntry host))
    exact ⟨_, rfl, not_reportsError headed (sameAction.trans word) nofun⟩
  · exact fun reason last kept => .admitted kept.1.sent (kept.1.verdicts ▸ passed) nofun

theorem btHandleAnnounce_ensures (restricted : config.infoHashRestriction ≠ .none)
    (action : datagram.action host = some .announce) (redis : Context) {ready : World}
    (calm : world.Calm [] ready) :
    Ensures Replies (Handled host config world datagram)
      (btHandleAnnounce host (datagram.request host) config datagram.params.buff
        datagram.params.buflen datagram.params.fromAddr (some redis)) ready := by
  refine .bind ((btValidRequest_handles host config redis _ _).ensures calm) ?_ ?_
  · intro valid checked calm
    cases valid with
    | false => exact .away calm rfl nofun fun asked => absurd rfl asked
    | true =>
        refine .bind (btInfoHashBlacklisted_ensures restricted _ calm) ?_ ?_
        · rintro refused screened ⟨verdict, asks, calm, judged⟩
          cases judged
          cases refuses : config.infoHashRestriction.refuses verdict.reply with
          | true =>
              dsimp only
              rw [if_pos rfl, btSendError_eq]
              exact .of_error calm _ _ fun _ => ⟨verdict, List.mem_singleton_self _, refuses⟩
          | false =>
              have passed : List.Forall₂ (Passes config) (datagram.requested host) [verdict] := by
                rw [Datagram.requested, action]
                exact .cons ⟨asks, refuses⟩ .nil
              refine .bind (btUpdatePeerList_ensures host config redis _ _ _ _ calm) ?_ ?_
              · intro _ updated calm
                exact answerAnnounce_ensures action redis passed calm
              · exact fun reason last calm =>
                  .admitted calm.sent (calm.verdicts ▸ passed) nofun
        · rintro reason screened ⟨verdict, asks, calm, judged⟩
          cases judged
  · exact fun reason last calm => .crashed calm rfl

/-- A scrape that was decoded has at most eight info hashes. -/
theorem infoHashLen_lt {buff : RecvBuffer} {buflen : Nat} {request : BtScrapeReq}
    (decoded : btReadScrapeRequestData host buff buflen = some request) :
    request.infoHashLen < 256 := by
  rw [btReadScrapeRequestData] at decoded
  split at decoded
  · rename_i within
    simp only [infoHashMemberSize] at within
    rw [← Option.some.inj decoded]
    dsimp only
    omega
  · cases decoded

/-- A scrape is answered once all of its info hashes have passed. -/
theorem answerScrape_ensures (restricted : config.infoHashRestriction ≠ .none)
    (action : datagram.action host = some .scrape) (redis : Context) {request : BtScrapeReq}
    (decoded : btReadScrapeRequestData host datagram.params.buff datagram.params.buflen =
      some request) {ready : World} (calm : world.Calm [] ready) :
    Ensures Replies (Handled host config world datagram)
      (some <$> answerScrape host (datagram.request host) config request (some redis)) ready := by
  have word := BtAction.ofWord?_eq_some.mp action
  have requested : datagram.requested host = request.texts.drop (0 : BitVec 8).toNat := by
    rw [Datagram.requested, action]
    dsimp only
    rw [decoded]
    rfl
  have looped : Ensures Replies _ (scrapeLoop (some redis) config request 256 0 []) ready :=
    scrapeLoop_ensures restricted (infoHashLen_lt decoded) 256 0 [] calm
  rw [Program.map_eq_bind, answerScrape, Program.bind_assoc]
  refine .bind looped ?_ ?_
  · rintro entries last ⟨asked, calm, ended, passed⟩
    cases entries with
    | none =>
        dsimp only
        rw [btSendError_eq, Program.done_bind]
        exact .of_error calm _ _ fun _ => ended rfl
    | some entries =>
        dsimp only
        rw [btSerializeScrapeResponse_eq, Program.done_bind]
        have passed := passed entries rfl
        rw [← requested] at passed
        refine .admitted calm.sent (calm.verdicts ▸ passed) ?_
        intro response returned
        cases returned
        have headed := scrapeHeader_headed host ⟨(datagram.request host).action,
          (datagram.request host).transactionId, entries.reverse⟩
          (entries.reverse.flatMap (statsEntry host))
        exact ⟨_, rfl, not_reportsError headed word nofun⟩
  · rintro reason last ⟨asked, calm, _⟩
    exact .crashed calm rfl

theorem btHandleScrape_ensures (restricted : config.infoHashRestriction ≠ .none)
    (action : datagram.action host = some .scrape) (redis : Context) {ready : World}
    (calm : world.Calm [] ready) :
    Ensures Replies (Handled host config world datagram)
      (btHandleScrape host (datagram.request host) config datagram.params.buff
        datagram.params.buflen (some redis)) ready := by
  refine .bind ((btValidRequest_handles host config redis _ _).ensures calm) ?_ ?_
  · intro valid checked calm
    cases valid with
    | false => exact .away calm rfl nofun fun asked => absurd rfl asked
    | true =>
        rw [if_neg (by decide)]
        cases decoded : btReadScrapeRequestData host datagram.params.buff
            datagram.params.buflen with
        | none => exact .crashed calm rfl
        | some request => exact answerScrape_ensures restricted action redis decoded calm
  · exact fun reason last calm => .crashed calm rfl

/-- Every job that handles an announce or a scrape. -/
theorem btRequestProcessor_ensures (restricted : config.infoHashRestriction ≠ .none)
    (kind : datagram.action host = some .announce ∨ datagram.action host = some .scrape)
    {ready : World} (calm : world.Calm [] ready) :
    Ensures Replies (Screened host config world datagram)
      (btRequestProcessor host config datagram.params) ready := by
  refine .bind (acquireRedis_ensures config calm) ?_ ?_
  · rintro redis linked ⟨calm, _⟩
    cases redis with
    | none =>
        refine Handled.respond ?_
        rw [dispatch, BtAction.ofWord?_toWord]
        dsimp only
        rw [btSendError_eq]
        exact .of_error calm _ _ fun asked => absurd rfl asked
    | some redis =>
        refine Handled.respond ?_
        rw [dispatch, ← Datagram.request, ← Datagram.action]
        rcases kind with announce | scrape
        · rw [announce]
          exact btHandleAnnounce_ensures restricted announce redis calm
        · rw [scrape]
          exact btHandleScrape_ensures restricted scrape redis calm
  · rintro reason last ⟨_, never⟩
    exact (never reason rfl).elim

end Handlers

/-! ## The restriction -/

section Theorem

variable {host : Host} {config : BtConfig} {world after : World} {arrival : Arrival}
variable {outcome : Except Fault Unit}

private theorem exists_of_forall₂ {α β : Type} {related : α → β → Prop} {left : List α}
    {right : List β} (matched : List.Forall₂ related left right) {second : β}
    (member : second ∈ right) : ∃ first, related first second := by
  induction matched with
  | nil => cases member
  | cons pair rest ih =>
      rcases List.mem_cons.mp member with rfl | later
      · exact ⟨_, pair⟩
      · exact ih later

private theorem forall₂_of_forall₂ {α β : Type} {related closer : α → β → Prop} {left : List α}
    {right : List β} (matched : List.Forall₂ related left right)
    (implies : ∀ first, ∀ second ∈ right, related first second → closer first second) :
    List.Forall₂ closer left right := by
  induction matched with
  | nil => exact .nil
  | cons pair rest ih =>
      refine .cons (implies _ _ (List.mem_cons_self ..) pair) (ih ?_)
      exact fun first second member => implies first second (List.mem_cons_of_mem _ member)

/-- A reply that is documented and does not make the request fail permits it. -/
theorem favourable_of_conclusive {verdict : Verdict} {mode : BtRestriction}
    (restricted : mode ≠ .none) (conclusive : verdict.Conclusive)
    (passes : mode.refuses verdict.reply = false) : verdict.reply = mode.favourable := by
  cases mode with
  | none => exact absurd rfl restricted
  | whitelist | blacklist =>
      rcases conclusive with reply | reply | reply
      all_goals
        rw [reply] at passes ⊢
        first
          | rfl
          | cases passes

theorem conclusive_of_favourable {verdict : Verdict} {mode : BtRestriction}
    (favourable : verdict.reply = mode.favourable) : verdict.Conclusive := by
  cases mode with
  | none => exact .inl favourable
  | whitelist => exact .inr (.inr favourable)
  | blacklist => exact .inr (.inl favourable)

/-- The restriction fails closed as long as Redis gives only documented replies,
or one of them makes the request fail; a request that is answered all the same
was let in by a reply that means nothing. -/
theorem failsClosed_iff (restricted : config.infoHashRestriction ≠ .none)
    (kind : arrival.action host = some .announce ∨ arrival.action host = some .scrape)
    (ran : Program.Runs World.Replies (btRequestProcessor host config arrival.params)
      (world.receive arrival) outcome after) :
    (Guarded config after →
        FailsClosed host config world arrival.toDatagram outcome after) ∧
      (outcome = .ok () → FailsClosed host config world arrival.toDatagram outcome after →
        Guarded config after) := by
  have calm : world.Calm [] (world.receive arrival) := ⟨rfl, rfl, rfl⟩
  have screened := (btRequestProcessor_ensures restricted kind calm).runs ran
  cases screened with
  | away turned reason =>
      constructor
      · exact fun _ => .inr turned
      · intro finished _
        by_cases asked : after.verdicts = []
        · refine .inr fun verdict member => ?_
          rw [asked] at member
          cases member
        · exact .inl (reason finished asked)
  | admitted passed served =>
      constructor
      · intro guarded
        rcases guarded with ⟨verdict, member, refused⟩ | conclusive
        · obtain ⟨text, _, passes⟩ := exists_of_forall₂ passed member
          rw [refused] at passes
          cases passes
        · refine .inl (forall₂_of_forall₂ passed fun text verdict member passes => ?_)
          exact ⟨passes.1,
            favourable_of_conclusive restricted (conclusive verdict member) passes.2⟩
      · intro finished closed
        rcases closed with favoured | turned
        · refine .inr fun verdict member => ?_
          obtain ⟨text, _, favourable⟩ := exists_of_forall₂ favoured member
          exact conclusive_of_favourable favourable
        · obtain ⟨response, member, noError⟩ := served finished
          exact absurd (turned.errors response member) noError

end Theorem

/-- The shipped configuration, restricted to a whitelist. -/
def whitelisting : BtConfig := { BtConfig.shipped with infoHashRestriction := .whitelist }

/-- An operator made a string of the whitelist. -/
def garbledList : World :=
  { World.start with
    store := Redis.Store.empty.put (restrictionKey whitelisting (ascii "wl"))
      ⟨.string (ascii "x"), none⟩ }

/-- Nobody is on an empty whitelist. -/
theorem failsClosed_emptyList :
    FailsClosed .little whitelisting .start (Arrival.sample 5 2).toDatagram
      (World.start.serve .little whitelisting (.sample 5 2)).1
      (World.start.serve .little whitelisting (.sample 5 2)).2 :=
  (failsClosed_iff (by decide) (.inl (by decide +kernel))
    (Program.runs_run World.exec (fun _ _ => .inl rfl) _ _)).1
      (.inl ⟨⟨restrictionKey whitelisting (ascii "wl"),
        infoHashText (BtAnnounceReq.sample 5 2).infoHash, some (.integer 0)⟩,
        by decide +kernel, by decide⟩)

private theorem sent_garbledList :
    (garbledList.serve .little whitelisting (.sample 5 2)).2.sent.map (·.2.take 4) =
      [Block.ofBytes [0, 0, 0, 1]] := by
  decide +kernel

private theorem verdicts_garbledList :
    (garbledList.serve .little whitelisting (.sample 5 2)).2.verdicts.map Verdict.reply =
      [some Redis.Store.wrongType] := by
  decide +kernel

/-- Redis replies with an error when it is asked for a member of the string, and
the announce is served. -/
theorem not_failsClosed_garbledList :
    ∃ outcome after, Program.Runs World.Replies
        (btRequestProcessor .little whitelisting (Arrival.sample 5 2).params)
        (garbledList.receive (.sample 5 2)) outcome after ∧
      ¬FailsClosed .little whitelisting garbledList (Arrival.sample 5 2).toDatagram
        outcome after := by
  refine ⟨_, _, Program.runs_run World.exec (fun _ _ => .inl rfl) _ _, ?_⟩
  change ¬FailsClosed .little whitelisting garbledList _ _
    (garbledList.serve .little whitelisting (.sample 5 2)).2
  rintro (favoured | turned)
  · obtain ⟨verdict, member, replied⟩ :=
      List.mem_map.mp (verdicts_garbledList ▸ List.mem_singleton_self _)
    obtain ⟨text, _, favourable⟩ := exists_of_forall₂ favoured member
    rw [replied] at favourable
    exact absurd favourable (by decide)
  · obtain ⟨response, member, action⟩ :=
      List.mem_map.mp (sent_garbledList ▸ List.mem_singleton_self _)
    have error := turned.errors response member
    rw [action] at error
    exact absurd error (by decide)

end BtTracker
