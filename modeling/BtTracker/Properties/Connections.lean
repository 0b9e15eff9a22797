import BtTracker.Correctness.Reach
import BtTracker.Correctness.Screening

/-!
# Connection identifiers

A client must obtain a connection identifier before it announces or scrapes, and
an identifier is good for two minutes.  `bt_connection_valid` asks for the key of
the identifier but takes the nil reply for a missing key as a confirmation.
-/

namespace BtTracker

open BtTracker.Foundation

variable (host : Host) (config : BtConfig) (world : World) (history : List Served)
  (arrival : Arrival)

/-- The identifier was issued less than two minutes ago and its key exists. -/
def Datagram.Live (datagram : Datagram) : Prop :=
  (world.store.find? (datagram.connectionKey host config)).isSome = true ∧
    ∃ served ∈ history, served.world.Connected host config served.arrival ∧
      (served.world.issued host config served.arrival).1 =
        (datagram.request host).connectionId ∧
      world.store.now < served.world.store.now + btActiveConnectionTtl

/-- Only a live identifier opens the door, and a request without one goes
unnoticed. -/
structure ConnectionChecked : Prop where
  passes : world.Accepted host config arrival → arrival.Live host config world history
  ignored : ¬arrival.Live host config world history →
    (world.serve host config arrival).2.sent = [] ∧
      (world.serve host config arrival).2.store = world.store

variable {host config world history arrival}

/-- An identifier whose key exists was issued in time. -/
theorem Datagram.live_of_present (reached : Reachable host config world history)
    {datagram : Datagram}
    (present : (world.store.find? (datagram.connectionKey host config)).isSome = true) :
    datagram.Live host config world history := by
  obtain ⟨entry, found⟩ := Option.isSome_iff_exists.mp present
  have notList : ¬(KeyName.connection (datagram.request host).connectionId).IsList := id
  obtain ⟨served, member, connected, issued, _, recent⟩ := reached.filed notList found
  exact ⟨present, served, member, connected, issued, recent⟩

/-- What is dropped goes unnoticed, whatever its identifier is. -/
theorem ConnectionChecked.of_rejected (linked : world.Linked config arrival)
    (rejected : (world.validated host config arrival).1 = .ok false)
    (kind : arrival.action host = some .announce ∨ arrival.action host = some .scrape) :
    ConnectionChecked host config world history arrival := by
  have harmless : arrival.action host ≠ some .error := by
    rcases kind with announce | scrape
    · simp [announce]
    · simp [scrape]
  obtain ⟨-, kept, nothing⟩ := world.serve_of_rejected host config arrival linked rejected harmless
  refine ⟨fun accepted => ?_, fun _ => ⟨nothing, kept⟩⟩
  cases rejected.symm.trans accepted.2

/-- A request without a connection to Redis is answered, and a long one whose key is
missing is accepted if Redis says so. -/
theorem ConnectionChecked.dropped (checked : ConnectionChecked host config world history arrival)
    (kind : arrival.action host = some .announce ∨ arrival.action host = some .scrape)
    (missing : ¬(world.store.find? (arrival.connectionKey host config)).isSome = true) :
    world.RedisWorks arrival ∧
      (arrival.TooShort host ∨ (world.checking config arrival).delivery ≠ .normal) := by
  have linked : world.Linked config arrival := by
    by_contra unlinked
    rw [World.Linked, Option.not_isSome_iff_eq_none] at unlinked
    have noticed := (world.serve_of_unlinked host config arrival unlinked).2.2
    rw [(checked.ignored fun live => missing live.1).1] at noticed
    cases noticed
  refine ⟨(world.linked_iff config arrival).mp linked, ?_⟩
  by_contra neither
  obtain ⟨long, answered⟩ := not_or.mp neither
  rw [not_not] at answered
  have accepted : world.Accepted host config arrival := by
    refine ⟨linked, ?_⟩
    rw [World.validated_of_long linked kind long, answered]
    simp only [Redis.Store.deliver, Redis.Store.exec,
      Option.not_isSome_iff_eq_none.mp missing]
    rfl
  exact missing (checked.passes accepted).1

/-- The check works as intended exactly for datagrams whose identifier has its key in
the database anyway, and for those that are dropped for another reason: although there
is a connection to Redis, they are too short, or the reply about the key is missing or
an error. -/
theorem connectionChecked_iff (reached : Reachable host config world history)
    (kind : arrival.action host = some .announce ∨ arrival.action host = some .scrape) :
    ConnectionChecked host config world history arrival ↔
      (world.store.find? (arrival.connectionKey host config)).isSome = true ∨
        (world.RedisWorks arrival ∧
          (arrival.TooShort host ∨ (world.checking config arrival).delivery ≠ .normal)) := by
  constructor
  · intro checked
    by_cases present : (world.store.find? (arrival.connectionKey host config)).isSome = true
    · exact .inl present
    · exact .inr (checked.dropped kind present)
  · rintro (present | ⟨works, dropped⟩)
    · have live := Datagram.live_of_present reached present
      exact ⟨fun _ => live, fun dead => absurd live dead⟩
    · have linked := (world.linked_iff config arrival).mpr works
      apply ConnectionChecked.of_rejected linked _ kind
      by_cases short : arrival.TooShort host
      · exact World.validated_of_tooShort short
      · rw [World.validated_of_long linked kind short]
        cases delivery : (world.checking config arrival).delivery with
        | normal => exact absurd delivery (dropped.resolve_left short)
        | unsent | refused text | unanswered => rfl

/-- A request for a connection. -/
def sampleConnect : Arrival := .calm ⟨1, 1⟩ (BtReq.datagram ⟨btProtocolId, 0, 7⟩)

/-- A full announce that carries the identifier zero. -/
def sampleAnnounce : Arrival := .calm ⟨1, 1⟩
  (BtReq.datagram ⟨0, 1, 8⟩ ++ List.replicate 82 0)

/-- The same announce while Redis is loading its data. -/
def loadingAnnounce : Arrival :=
  { sampleAnnounce with choices := fun position =>
      if position = 4 then { Choice.calm with delivery := .refused (ascii "LOADING") } else .calm }

/-- Right after a connection was issued, it is checked as intended, and so is an
identifier nobody ever issued if the reply about it is an error. -/
theorem connectionChecked_sample :
    ConnectionChecked .little .shipped (World.start.serve .little .shipped sampleConnect).2
      [⟨.start, sampleConnect⟩] sampleAnnounce ∧
    ConnectionChecked .little .shipped .start [] loadingAnnounce := by
  have present : ((World.start.serve .little .shipped sampleConnect).2.store.find?
      (sampleAnnounce.connectionKey .little .shipped)).isSome = true := by decide +kernel
  have refused : (World.start.checking .shipped loadingAnnounce).delivery ≠ .normal := by
    decide +kernel
  have kind : sampleAnnounce.action .little = some .announce := by decide +kernel
  have kindAgain : loadingAnnounce.action .little = some .announce := by decide +kernel
  have works : World.start.RedisWorks loadingAnnounce := ⟨0, rfl⟩
  constructor
  · exact (connectionChecked_iff (.serve .fresh sampleConnect) (.inl kind)).mpr (.inl present)
  · exact (connectionChecked_iff .fresh (.inl kindAgain)).mpr (.inr ⟨works, .inr refused⟩)

/-- An announce with an identifier nobody ever issued is accepted. -/
theorem not_connectionChecked : Reachable .little .shipped .start [] ∧
    ¬ConnectionChecked .little .shipped .start [] sampleAnnounce := by
  refine ⟨.fresh, fun checked => ?_⟩
  have accepted : World.start.Accepted .little .shipped sampleAnnounce := by decide +kernel
  obtain ⟨-, served, member, -⟩ := checked.passes accepted
  cases member

end BtTracker
