import Mathlib.Data.Set.Defs
import Mathlib.Logic.Function.Basic

/-!
# What a tracker is for

A tracker hands out tokens, keeps the peers of each torrent as seeders or as
leechers until they leave or fall silent, and counts completed downloads.  Every
event is one indivisible change of its state, and time is an event like any other.
How tokens, torrents, peers and their records look is left open.
-/

namespace BtTracker.Specification

/-- How long tokens and records last, and how far downloads are counted. -/
structure Terms where
  tokenTtl : Nat
  recordTtl : Nat
  counterMax : Nat

/-- The state of a tracker.  Tokens and records come with the moment they expire;
a peer is filed for a torrent under its role, `true` for a seeder. -/
structure Tracker (Token Torrent Peer Record : Type) where
  now : Nat
  tokens : Token → Option Nat
  records : Torrent × Bool × Peer → Option (Record × Nat)
  downloads : Torrent → Nat

/-- What may happen to a tracker. -/
inductive Event (Token Torrent Peer Record : Type) where
  | issue (token : Token)
  | register (torrent : Torrent) (isSeeder : Bool) (peer : Peer) (record : Record)
  | leave (torrent : Torrent) (isSeeder : Bool) (peer : Peer)
  | complete (torrent : Torrent) (peer : Peer)
  | wait (seconds : Nat)

namespace Tracker

variable {Token Torrent Peer Record : Type} [DecidableEq Token] [DecidableEq Torrent]
  [DecidableEq Peer] (terms : Terms)

/-- A tracker nobody has used yet. -/
def initial : Tracker Token Torrent Peer Record := ⟨0, fun _ => none, fun _ => none, fun _ => 0⟩

/-- Put a record in its place, or leave the place empty. -/
def file (tracker : Tracker Token Torrent Peer Record) (place : Torrent × Bool × Peer)
    (record : Option (Record × Nat)) : Tracker Token Torrent Peer Record :=
  { tracker with records := Function.update tracker.records place record }

/-- Count one more download of a torrent. -/
def count (tracker : Tracker Token Torrent Peer Record) (torrent : Torrent) :
    Tracker Token Torrent Peer Record :=
  { tracker with
    downloads := Function.update tracker.downloads torrent
      (min (tracker.downloads torrent + 1) terms.counterMax) }

/-- One event.  A record without any time to live is not kept, and only a leecher
completes a download, keeping its record and its time. -/
def step (tracker : Tracker Token Torrent Peer Record) :
    Event Token Torrent Peer Record → Tracker Token Torrent Peer Record
  | .issue token =>
      { tracker with
        tokens := Function.update tracker.tokens token (some (tracker.now + terms.tokenTtl)) }
  | .register torrent isSeeder peer record =>
      if 0 < terms.recordTtl then
        tracker.file (torrent, isSeeder, peer) (some (record, tracker.now + terms.recordTtl))
      else tracker
  | .leave torrent isSeeder peer => tracker.file (torrent, isSeeder, peer) none
  | .complete torrent peer =>
      match tracker.records (torrent, false, peer) with
      | none => tracker
      | some record =>
          ((tracker.file (torrent, false, peer) none).file (torrent, true, peer)
            (some record)).count terms torrent
  | .wait seconds =>
      { tracker with
        now := tracker.now + seconds
        tokens := fun token =>
          (tracker.tokens token).filter fun deadline => tracker.now + seconds < deadline
        records := fun key =>
          (tracker.records key).filter fun record => tracker.now + seconds < record.2 }

/-- The peers on record for a torrent in a role. -/
def peers (tracker : Tracker Token Torrent Peer Record) (torrent : Torrent) (isSeeder : Bool) :
    Set Peer :=
  {peer | tracker.records (torrent, isSeeder, peer) ≠ none}

/-- The tracker after some events, the last one first. -/
def steps (tracker : Tracker Token Torrent Peer Record) :
    List (Event Token Torrent Peer Record) → Tracker Token Torrent Peer Record
  | [] => tracker
  | event :: earlier => (steps tracker earlier).step terms event

theorem steps_append (tracker : Tracker Token Torrent Peer Record)
    (later earlier : List (Event Token Torrent Peer Record)) :
    tracker.steps terms (later ++ earlier) = (tracker.steps terms earlier).steps terms later := by
  induction later with
  | nil => rfl
  | cons event later ih => exact congrArg (step terms · event) ih

variable {terms} {tracker : Tracker Token Torrent Peer Record} {torrent : Torrent} {peer : Peer}
  {record : Record} {deadline : Nat}

omit [DecidableEq Token] in
theorem records_file {place other : Torrent × Bool × Peer} {entry : Option (Record × Nat)}
    (found : (tracker.file place entry).records other = some (record, deadline)) :
    (other = place ∧ entry = some (record, deadline)) ∨
      tracker.records other = some (record, deadline) := by
  by_cases same : other = place
  · subst same
    simp only [file, Function.update_self] at found
    exact .inl ⟨rfl, found⟩
  · simp only [file, Function.update_of_ne same] at found
    exact .inr found

/-- What is on record after an event was registered by it, or was on record for the
same peer before. -/
theorem records_step {event : Event Token Torrent Peer Record} {isSeeder : Bool}
    (found : (tracker.step terms event).records (torrent, isSeeder, peer) =
      some (record, deadline)) :
    (event = .register torrent isSeeder peer record ∧ 0 < terms.recordTtl ∧
        deadline = tracker.now + terms.recordTtl) ∨
      (∃ role, tracker.records (torrent, role, peer) = some (record, deadline)) ∧
        (tracker.now < deadline → (tracker.step terms event).now < deadline) := by
  cases event with
  | issue token => exact .inr ⟨⟨isSeeder, found⟩, id⟩
  | register other role someone entry =>
      by_cases lasting : 0 < terms.recordTtl
      · simp only [step, lasting, if_true] at found ⊢
        rcases records_file found with ⟨same, fresh⟩ | before
        · cases same
          cases fresh
          exact .inl ⟨rfl, trivial, rfl⟩
        · exact .inr ⟨⟨isSeeder, before⟩, id⟩
      · simp only [step, lasting, if_false] at found ⊢
        exact .inr ⟨⟨isSeeder, found⟩, id⟩
  | leave other role someone =>
      rcases records_file found with ⟨-, gone⟩ | before
      · cases gone
      · exact .inr ⟨⟨isSeeder, before⟩, id⟩
  | complete other someone =>
      right
      cases leecher : tracker.records (other, false, someone) with
      | none =>
          simp only [step, leecher] at found ⊢
          exact ⟨⟨isSeeder, found⟩, id⟩
      | some entry =>
          simp only [step, leecher] at found ⊢
          refine ⟨?_, id⟩
          rcases records_file found with ⟨same, moved⟩ | before
          · cases same
            rw [moved] at leecher
            exact ⟨false, leecher⟩
          · rcases records_file before with ⟨-, gone⟩ | before
            · cases gone
            · exact ⟨isSeeder, before⟩
  | wait seconds =>
      right
      simp only [step, Option.filter_eq_some_iff, decide_eq_true_eq] at found ⊢
      exact ⟨⟨isSeeder, found.1⟩, fun _ => found.2⟩

theorem now_le_step (event : Event Token Torrent Peer Record) :
    tracker.now ≤ (tracker.step terms event).now := by
  cases event with
  | issue token | leave other role someone => exact Nat.le_refl _
  | register other role someone entry =>
      rw [step]
      split <;> exact Nat.le_refl _
  | complete other someone =>
      rw [step]
      split <;> exact Nat.le_refl _
  | wait seconds => exact Nat.le_add_right ..

variable (terms) in
/-- The peer was registered with this record for the torrent, and the record lasts
until the deadline. -/
def Registered (events : List (Event Token Torrent Peer Record)) (torrent : Torrent)
    (peer : Peer) (record : Record) (deadline : Nat) : Prop :=
  ∃ later isSeeder earlier, events = later ++ .register torrent isSeeder peer record :: earlier ∧
    deadline = (initial.steps terms earlier).now + terms.recordTtl

/-- No record outlives the time to live from now on. -/
theorem Registered.deadline_le {events : List (Event Token Torrent Peer Record)}
    (registered : Registered terms events torrent peer record deadline) :
    deadline ≤ (initial.steps terms events).now + terms.recordTtl := by
  obtain ⟨later, isSeeder, earlier, rfl, rfl⟩ := registered
  apply Nat.add_le_add_right
  induction later with
  | nil => exact now_le_step _
  | cons event later ih => exact Nat.le_trans ih (now_le_step event)

/-- Every record of a tracker was registered for its torrent, by its peer, and has
not expired. -/
theorem registered_of_records {events : List (Event Token Torrent Peer Record)} {isSeeder : Bool}
    (found : (initial.steps terms events).records (torrent, isSeeder, peer) =
      some (record, deadline)) :
    Registered terms events torrent peer record deadline ∧
      (initial.steps terms events).now < deadline := by
  induction events generalizing isSeeder with
  | nil => cases found
  | cons event earlier ih =>
      rcases records_step found with ⟨rfl, lasting, rfl⟩ | ⟨⟨role, before⟩, lives⟩
      · refine ⟨⟨[], isSeeder, earlier, rfl, rfl⟩, ?_⟩
        simp only [steps, step, lasting, if_true, file]
        exact Nat.lt_add_of_pos_right lasting
      · obtain ⟨⟨later, first, since, rfl, lasts⟩, alive⟩ := ih before
        exact ⟨⟨event :: later, first, since, rfl, lasts⟩, lives alive⟩

end Tracker

end BtTracker.Specification
