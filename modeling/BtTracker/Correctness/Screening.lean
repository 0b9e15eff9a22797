import BtTracker.Correctness.Serve

/-!
# Passing the checks

Whether a request is accepted and its info hash permitted depends on the datagram
and on the database alone, as long as Redis answers normally.
-/

namespace BtTracker

open BtTracker.Foundation

namespace BtRestriction

/-- The set that is consulted. -/
def listName : BtRestriction → Bytes
  | .whitelist => ascii "wl"
  | .blacklist => ascii "bl"
  | .none => []

/-- What `bt_info_hash_blacklisted` makes of a reply. -/
def refuses : BtRestriction → Option Redis.Reply → Bool
  | .whitelist, Option.none => true
  | .whitelist, some (.integer value) => decide (value = 0)
  | .blacklist, Option.none => true
  | .blacklist, some (.integer value) => decide (0 < value)
  | _, _ => false

end BtRestriction

/-- `bt_info_hash_blacklisted` asks once and judges the reply. -/
theorem btInfoHashBlacklisted_eq {config : BtConfig}
    (restricted : config.infoHashRestriction ≠ .none) (redis : Option Context) (text : Bytes) :
    btInfoHashBlacklisted redis config text =
      redisCommand redis (.sismember
        (restrictionKey config config.infoHashRestriction.listName) text) >>= fun reply =>
          .done (config.infoHashRestriction.refuses reply) := by
  rw [btInfoHashBlacklisted]
  cases mode : config.infoHashRestriction with
  | none => exact absurd mode restricted
  | whitelist | blacklist =>
      refine congrArg (redisCommand redis _ >>= ·) ?_
      funext reply
      cases reply with
      | none => rfl
      | some reply => cases reply <;> rfl

/-- Whether `SISMEMBER` makes the tracker refuse an info hash. -/
def refusedBy (config : BtConfig) (store : Redis.Store) (infoHashStr : Bytes) : Bool :=
  config.infoHashRestriction.refuses (some (store.exec .sorted (.sismember
    (restrictionKey config config.infoHashRestriction.listName) infoHashStr)).1)

namespace World

variable {host : Host} {config : BtConfig} {world : World} {arrival : Arrival}

/-- While Redis answers normally, an info hash is judged by the database. -/
theorem Normal.run_btInfoHashBlacklisted (normal : world.Normal) (config : BtConfig)
    (redis : Context) (infoHashStr : Bytes) :
    (world.run (btInfoHashBlacklisted (some redis) config infoHashStr)).1 =
      .ok (refusedBy config world.store infoHashStr) := by
  by_cases unrestricted : config.infoHashRestriction = .none
  · rw [refusedBy, btInfoHashBlacklisted, unrestricted]
    rfl
  · rw [btInfoHashBlacklisted_eq unrestricted, redisCommand_some, Program.perform_bind, run_call,
      World.exec, normal.command]
    rfl

/-- The validation of an announce or a scrape that is long enough. -/
theorem btValidRequest_of_long
    (kind : arrival.action host = some .announce ∨ arrival.action host = some .scrape)
    (long : ¬arrival.TooShort host) (redis : Option Context) :
    btValidRequest host redis config (arrival.request host) arrival.params.buflen =
      btConnectionValid host redis config (arrival.request host).connectionId := by
  rw [btValidRequest, ← Datagram.action]
  rcases kind with announce | scrape
  · have length : arrival.params.buflen ≥ 20 := by
      by_contra short
      exact long (.inl ⟨announce, by omega⟩)
    simp only [announce, length, if_true]
  · have length : arrival.params.buflen ≥ 8 := by
      by_contra short
      exact long (.inr ⟨scrape, by omega⟩)
    simp only [scrape, length, if_true]

theorem validated_of_tooShort (short : arrival.TooShort host) :
    (world.validated host config arrival).1 = .ok false := by
  rw [validated, btValidRequest, ← Datagram.action]
  rcases short with ⟨announce, short⟩ | ⟨scrape, short⟩
  · have length : ¬arrival.params.buflen ≥ 20 := by omega
    simp only [announce, length, if_false]
    rfl
  · have length : ¬arrival.params.buflen ≥ 8 := by omega
    simp only [scrape, length, if_false]
    rfl

variable (config world arrival) in
/-- How the environment resolves the first operation after a connection to Redis was
acquired: for a request that is long enough, the question for its connection. -/
def checking : Choice := (world.acquired config arrival).2.choices 0

/-- A long request is accepted unless the reply about its connection is missing or an
error. -/
theorem validated_of_long (linked : world.Linked config arrival)
    (kind : arrival.action host = some .announce ∨ arrival.action host = some .scrape)
    (long : ¬arrival.TooShort host) :
    (world.validated host config arrival).1 = .ok ((world.store.deliver
      (world.checking config arrival).delivery (world.checking config arrival).listing
        (.get (arrival.connectionKey host config))).1.any (!·.isError)) := by
  obtain ⟨redis, context⟩ := Option.isSome_iff_exists.mp linked
  rw [validated, btValidRequest_of_long kind long, context, btConnectionValid,
    redisCommand_some, ← Datagram.connectionKey]
  simp only [Program.perform_bind, run_call, exec, command, acquired_store]
  rw [checking]
  split <;> rename_i answered <;> rw [answered] <;> rfl

/-- A long request is accepted unless the reply about its connection is an
error. -/
theorem validated_of_normal (linked : world.Linked config arrival) (normal : arrival.Normal)
    (kind : arrival.action host = some .announce ∨ arrival.action host = some .scrape)
    (long : ¬arrival.TooShort host) :
    (world.validated host config arrival).1 = .ok
      (!(world.store.exec .sorted (.get (arrival.connectionKey host config))).1.isError) := by
  have asked : (world.checking config arrival).delivery = .normal :=
    world.acquired_normal config arrival normal 0
  rw [validated_of_long linked kind long, asked]
  rfl

/-- An info hash is refused for the reply the database gives. -/
theorem screened_of_normal (linked : world.Linked config arrival) (normal : arrival.Normal) :
    (world.screened host config arrival).1 = .ok (config.infoHashRestriction.refuses
      (some (world.store.exec .sorted (.sismember
        (restrictionKey config config.infoHashRestriction.listName)
        (infoHashText (arrival.announce host).infoHash))).1)) := by
  obtain ⟨redis, context⟩ := Option.isSome_iff_exists.mp linked
  have ready := world.validated_normal host config arrival normal
  rw [screened, context, ready.run_btInfoHashBlacklisted, validated_store]
  rfl

/-- A nil reply is not an error, so a missing key passes. -/
theorem accepted_of_missing (works : world.RedisWorks arrival) (normal : arrival.Normal)
    (kind : arrival.action host = some .announce ∨ arrival.action host = some .scrape)
    (long : ¬arrival.TooShort host)
    (missing : world.store.find? (arrival.connectionKey host config) = none) :
    world.Accepted host config arrival := by
  have linked := (world.linked_iff config arrival).mpr works
  refine ⟨linked, ?_⟩
  rw [validated_of_normal linked normal kind long]
  simp only [Redis.Store.exec, missing]
  rfl

theorem admitted_of_missing (unrestricted : config.infoHashRestriction = .none)
    (works : world.RedisWorks arrival) (normal : arrival.Normal)
    (action : arrival.action host = some .announce) (long : 20 ≤ arrival.params.buflen)
    (missing : world.store.find? (arrival.connectionKey host config) = none) :
    world.Admitted host config arrival := by
  have notShort : ¬arrival.TooShort host := by
    rintro (⟨-, short⟩ | ⟨scrape, -⟩)
    · omega
    · rw [action] at scrape
      cases scrape
  refine ⟨action, accepted_of_missing works normal (.inl action) notShort missing, ?_⟩
  rw [screened, btInfoHashBlacklisted, unrestricted]
  rfl

end World

end BtTracker
