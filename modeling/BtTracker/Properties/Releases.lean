import BtTracker.Correctness.Swarm
import BtTracker.Semantics.Contexts

/-!
# Replies of a pipeline

`bt_get_torrent_stats` reads three replies through one pointer that nobody sets
beforehand.  A call of `redisGetReply` that fails leaves the pointer alone, and it
is released all the same: either what the stack held, or the previous reply for a
second time.
-/

namespace BtTracker

open BtTracker.Foundation

/-- What was received is released once, and nothing else is released. -/
structure ReleasedOnce (history : List (Usage Pointee)) : Prop where
  sound : Usage.Sound history
  released : ∀ pointee, .acquired pointee ∈ history → .released pointee ∈ history

section Stats

variable (reply : Redis.Command → Option Redis.Reply) (redis : Context) (config : BtConfig)
  (infoHashStr : Bytes)

/-- The three commands of the pipeline. -/
def seedersCommand : Redis.Command := .keys (swarmPattern config infoHashStr true)
def leechersCommand : Redis.Command := .keys (swarmPattern config infoHashStr false)
def downloadsCommand : Redis.Command := .hget (infoHashKey config infoHashStr) (ascii "downs")

/-- A call of `bt_get_torrent_stats` on a server with fixed replies, for what the
stack holds; `none` is a `redisGetReply` that fails.  It returns the counters and
what became of the replies. -/
def statsCall (stack : Option Pointee) (ledger : Ledger) :
    Except Fault (BtTorrentStats × List (Usage Pointee)) :=
  ((torrentStatsReplies stack (some redis) config infoHashStr .unassigned).run
    (Ledger.exec true reply) ledger).1

/-- The call returns, has released replies as it should, and has assigned all the
counters a response may carry. -/
def StatsKept (stack : Option Pointee) (ledger : Ledger) : Prop :=
  ∃ stats history, statsCall reply redis config infoHashStr stack ledger = .ok (stats, history) ∧
    ReleasedOnce history ∧
    stats.seeders.isSome ∧ stats.leechers.isSome ∧ stats.downloads.isSome

/-- All three replies arrive. -/
def AllArrive : Prop :=
  (reply (seedersCommand config infoHashStr)).isSome = true ∧
    (reply (leechersCommand config infoHashStr)).isSome = true ∧
    (reply (downloadsCommand config infoHashStr)).isSome = true

variable {reply config infoHashStr}

/-- Every reply is released before the next one arrives. -/
theorem statsKept_of_arrived (arrive : AllArrive reply config infoHashStr)
    (stack : Option Pointee) (ledger : Ledger) :
    StatsKept reply redis config infoHashStr stack ledger := by
  obtain ⟨seeders, leechers, downloads⟩ := arrive
  obtain ⟨first, seeders⟩ := Option.isSome_iff_exists.mp seeders
  obtain ⟨second, leechers⟩ := Option.isSome_iff_exists.mp leechers
  obtain ⟨third, downloads⟩ := Option.isSome_iff_exists.mp downloads
  simp only [seedersCommand, leechersCommand, downloadsCommand, swarmPattern] at *
  have inTurn : ReleasedOnce [.released (.reply 2), .acquired (.reply 2), .released (.reply 1),
      .acquired (.reply 1), .released (.reply 0), .acquired (.reply 0)] := by
    constructor <;> simp [Usage.Sound]
  simp [StatsKept, statsCall, torrentStatsReplies, Ledger.exec, seeders, leechers, downloads,
    ReplyVar.free_getReply, inTurn]

/-- Any reply that is missing makes the code release something that is not its own,
unless it is the first one and the stack happens to hold a null pointer. -/
theorem statsCall_of_missing (missing : ¬AllArrive reply config infoHashStr)
    {stack : Option Pointee}
    (held : stack = none → (reply (seedersCommand config infoHashStr)).isSome = true)
    (ledger : Ledger) :
    statsCall reply redis config infoHashStr stack ledger = .error .badFree := by
  simp only [AllArrive, seedersCommand, leechersCommand, downloadsCommand, swarmPattern]
    at missing held
  cases seeders : reply (.keys (swarmPrefix config infoHashStr true ++ ascii "*")) with
  | none =>
      cases stack with
      | none => simp [seeders] at held
      | some pointee =>
          simp [statsCall, torrentStatsReplies, Ledger.exec, seeders, ReplyVar.getReply,
            ReplyVar.free, Usage.Live]
  | some first =>
      cases leechers : reply (.keys (swarmPrefix config infoHashStr false ++ ascii "*")) with
      | none =>
          simp [statsCall, torrentStatsReplies, Ledger.exec, seeders, leechers,
            ReplyVar.getReply, ReplyVar.free]
      | some second =>
          cases downloads : reply (.hget (infoHashKey config infoHashStr) (ascii "downs")) with
          | none =>
              simp [statsCall, torrentStatsReplies, Ledger.exec, seeders, leechers, downloads,
                ReplyVar.getReply, ReplyVar.free]
          | some third => simp [seeders, leechers, downloads] at missing

/-- Behind a null pointer nothing is counted for a first reply that is missing. -/
theorem not_counted_of_missing (missing : reply (seedersCommand config infoHashStr) = none)
    {ledger : Ledger} {stats : BtTorrentStats} {history : List (Usage Pointee)}
    (returned : statsCall reply redis config infoHashStr none ledger = .ok (stats, history)) :
    stats.seeders = none := by
  simp only [seedersCommand, swarmPattern] at missing
  cases leechers : reply (.keys (swarmPrefix config infoHashStr false ++ ascii "*")) <;>
    cases downloads : reply (.hget (infoHashKey config infoHashStr) (ascii "downs")) <;>
    simp [statsCall, torrentStatsReplies, Ledger.exec, missing, leechers, downloads,
      ReplyVar.getReply, ReplyVar.free, BtTorrentStats.unassigned] at returned <;>
    simp [← returned.1]

theorem not_statsKept_of_missing (missing : ¬AllArrive reply config infoHashStr)
    (stack : Option Pointee) (ledger : Ledger) :
    ¬StatsKept reply redis config infoHashStr stack ledger := by
  rintro ⟨stats, history, returned, -, counted, -⟩
  by_cases held : stack = none → (reply (seedersCommand config infoHashStr)).isSome = true
  · cases (statsCall_of_missing redis missing held ledger).symm.trans returned
  · obtain ⟨rfl, lost⟩ := Classical.not_imp.mp held
    rw [not_counted_of_missing redis (Option.not_isSome_iff_eq_none.mp lost) returned] at counted
    cases counted

variable (reply config infoHashStr)

/-- With an address on the stack the call dies exactly if a reply is missing. -/
theorem statsCall_eq_badFree_iff (pointee : Pointee) (ledger : Ledger) :
    statsCall reply redis config infoHashStr (some pointee) ledger = .error .badFree ↔
      ¬AllArrive reply config infoHashStr := by
  constructor
  · intro faulted arrive
    obtain ⟨stats, history, returned, -⟩ := statsKept_of_arrived redis arrive (some pointee) ledger
    cases faulted.symm.trans returned
  · intro missing
    have held : some pointee = none → (reply (seedersCommand config infoHashStr)).isSome = true :=
      fun null => by cases null
    exact statsCall_of_missing redis missing held ledger

/-- Replies and counters are in order only if every reply arrives, whatever the
stack held. -/
theorem statsKept_iff (stack : Option Pointee) (ledger : Ledger) :
    StatsKept reply redis config infoHashStr stack ledger ↔
      (reply (seedersCommand config infoHashStr)).isSome = true ∧
        (reply (leechersCommand config infoHashStr)).isSome = true ∧
        (reply (downloadsCommand config infoHashStr)).isSome = true := by
  constructor
  · intro kept
    by_contra missing
    exact not_statsKept_of_missing redis missing stack ledger kept
  · intro arrive
    exact statsKept_of_arrived redis arrive stack ledger

end Stats

/-- A server that lists no peers and does not answer `HGET`. -/
def silentCounter : Redis.Command → Option Redis.Reply
  | .hget _ _ => none
  | _ => some (.array [])

/-- The second reply is released twice. -/
theorem not_statsKept_silentCounter :
    statsCall silentCounter 0 .shipped (infoHashText fun _ => 65) none .initial =
        .error .badFree ∧
      ¬StatsKept silentCounter 0 .shipped (infoHashText fun _ => 65) none .initial := by
  have faulted : statsCall silentCounter 0 .shipped (infoHashText fun _ => 65) none .initial =
      .error .badFree := rfl
  refine ⟨faulted, ?_⟩
  rintro ⟨stats, history, returned, -⟩
  cases faulted.symm.trans returned

end BtTracker
