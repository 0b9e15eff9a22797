import BtTracker.Model.Processor

/-!
# The world a worker runs in

One database for all connections, even where `SELECT` is refused, the socket address
cell of the receive loop, the thread's slot and the datagrams sent so far.  Everything
the code does not decide (deliveries, random numbers, what `malloc` left in a block,
the order of `KEYS`, the outcome of a connection attempt) comes from a stream of
choices, one for each operation.
-/

namespace BtTracker

open BtTracker.Foundation

/-- How the environment resolves one operation. -/
structure Choice where
  delivery : Redis.Delivery
  listing : Redis.Listing
  random : Fin (randMax + 1)
  residue : Octets 6
  connect : Context → ConnectResult

/-- An environment in which nothing goes wrong. -/
def Choice.calm : Choice where
  delivery := .normal
  listing := .sorted
  random := 0
  residue := fun _ => 0
  connect := .opened

/-- The state the operations of a worker act on.  `trace` records the commands
sent to Redis and their replies. -/
structure World where
  store : Redis.Store
  siOther : SockaddrIn
  slot : Option Context
  nextContext : Context
  choices : Nat → Choice
  trace : List (Redis.Command × Option Redis.Reply)
  sent : List (SockaddrIn × Block)

namespace World

/-- A tracker that just started, in front of an empty database. -/
def start : World where
  store := .empty
  siOther := ⟨0, 0⟩
  slot := none
  nextContext := 0
  choices := fun _ => .calm
  trace := []
  sent := []

/-- The socket address behind a pointer. -/
def sockaddr (world : World) : SockaddrPtr → SockaddrIn
  | .siOther => world.siOther

/-- Use up one choice. -/
def tick (world : World) : World :=
  { world with choices := fun position => world.choices (position + 1) }

/-- Reply and world after one command. -/
def command (world : World) (request : Redis.Command) : Option Redis.Reply × World :=
  let choice := world.choices 0
  let (reply, store) := world.store.deliver choice.delivery choice.listing request
  (reply, { world.tick with store := store, trace := world.trace ++ [(request, reply)] })

/-- Perform one operation. -/
def exec : (op : Op) → World → op.Answer × World
  | .privateGet, world => (world.slot, world.tick)
  | .privateReplace redis, world => ((), { world.tick with slot := redis })
  | .redisConnect _ _, world =>
      ((world.choices 0).connect world.nextContext,
        { world.tick with nextContext := world.nextContext + 1 })
  | .redisFree _, world => ((), world.tick)
  | .redisCommand _ request, world => world.command request
  | .rand, world => ((world.choices 0).random, world.tick)
  | .malloc, world => ((world.choices 0).residue, world.tick)
  | .loadSockaddr address, world => (world.sockaddr address, world.tick)
  | .sendto address data, world =>
      ((), { world.tick with sent := world.sent ++ [(world.sockaddr address, data)] })

/-- Run a worker program to its end. -/
def run {α : Type} (program : Worker α) (world : World) : Except Fault α × World :=
  Program.run exec program world

/-- Every command from here on is answered normally. -/
def Normal (world : World) : Prop :=
  ∀ position, (world.choices position).delivery = .normal

@[simp] theorem siOther_exec (op : Op) (world : World) :
    (exec op world).2.siOther = world.siOther := by
  cases op <;> rfl

@[simp] theorem choices_exec (op : Op) (world : World) :
    (exec op world).2.choices = fun position => world.choices (position + 1) := by
  cases op <;> rfl

@[simp] theorem now_exec (op : Op) (world : World) :
    (exec op world).2.store.now = world.store.now := by
  cases op with
  | redisCommand redis request =>
      rcases world.store.deliver_store (world.choices 0).delivery (world.choices 0).listing
        request with kept | executed
      · exact congrArg Redis.Store.now kept
      · exact (congrArg Redis.Store.now executed).trans (Redis.Store.now_after ..)
  | _ => rfl

theorem Normal.exec {world : World} (normal : world.Normal) (op : Op) :
    (World.exec op world).2.Normal := by
  intro position
  rw [choices_exec]
  exact normal (position + 1)

/-- In a normal world a command gets the server's own reply. -/
theorem Normal.command {world : World} (normal : world.Normal) (request : Redis.Command) :
    world.command request =
      (some (world.store.exec (world.choices 0).listing request).1,
        { world.tick with
          store := world.store.after request
          trace := world.trace ++
            [(request, some (world.store.exec (world.choices 0).listing request).1)] }) := by
  simp only [World.command, normal 0, Redis.Store.deliver, Redis.Store.exec_store]

/-- Whatever becomes of a command, it was executed or it was not. -/
theorem command_store (world : World) (request : Redis.Command) :
    (world.command request).2.store = world.store ∨
      (world.command request).2.store = world.store.after request :=
  world.store.deliver_store _ _ request

section Run

variable {α β : Type}

@[simp] theorem run_done (result : α) (world : World) :
    run (.done result) world = (.ok result, world) := rfl

@[simp] theorem run_fault (reason : Fault) (world : World) :
    run (.fault reason : Worker α) world = (.error reason, world) := rfl

@[simp] theorem run_call (op : Op) (next : op.Answer → Worker α) (world : World) :
    run (.call op next) world = run (next (exec op world).1) (exec op world).2 := rfl

@[simp] theorem run_perform (op : Op) (world : World) :
    run (.perform op) world = (.ok (exec op world).1, (exec op world).2) := rfl

theorem run_bind_of_ok {program : Worker α} {rest : α → Worker β} {world after : World}
    {result : α} (first : run program world = (.ok result, after)) :
    run (program >>= rest) world = run (rest result) after :=
  Program.run_bind_of_ok exec first

theorem run_bind_of_error {program : Worker α} {rest : α → Worker β} {world after : World}
    {reason : Fault} (first : run program world = (.error reason, after)) :
    run (program >>= rest) world = (.error reason, after) :=
  Program.run_bind_of_error exec first

/-- Programs with the same run stay interchangeable in front of a third one. -/
theorem run_bind_congr {program other : Worker α} {world after : World}
    (same : run program world = run other after) (rest : α → Worker β) :
    run (program >>= rest) world = run (other >>= rest) after := by
  simp only [run, Program.run_bind] at same ⊢
  rw [same]

/-- An invariant of every operation is an invariant of every program. -/
theorem run_invariant (invariant : World → Prop)
    (step : ∀ op world, invariant world → invariant (exec op world).2)
    (program : Worker α) {world : World} (holds : invariant world) :
    invariant (run program world).2 := by
  induction program generalizing world with
  | done result => exact holds
  | fault reason => exact holds
  | call op next ih => exact ih _ (step op world holds)

@[simp] theorem siOther_run (program : Worker α) (world : World) :
    (run program world).2.siOther = world.siOther :=
  run_invariant (fun other => other.siOther = world.siOther)
    (fun op other same => (siOther_exec op other).trans same) program rfl

@[simp] theorem now_run (program : Worker α) (world : World) :
    (run program world).2.store.now = world.store.now :=
  run_invariant (fun other => other.store.now = world.store.now)
    (fun op other same => (now_exec op other).trans same) program rfl

/-- What holds of all choices holds of those that are left. -/
theorem choices_run (good : Choice → Prop) {world : World}
    (all : ∀ position, good (world.choices position)) (program : Worker α) :
    ∀ position, good ((run program world).2.choices position) := by
  refine run_invariant (fun other => ∀ position, good (other.choices position)) ?_ program all
  intro op other holds position
  rw [choices_exec]
  exact holds (position + 1)

theorem Normal.run {world : World} (normal : world.Normal) (program : Worker α) :
    (World.run program world).2.Normal :=
  choices_run (fun choice => choice.delivery = .normal) normal program

end Run

end World

/-! ## Operations that only look -/

/-- Operations that change neither the database nor what was sent. -/
def Op.Observes : Op → Prop
  | .redisCommand _ request => request.ReadOnly
  | .sendto .. => False
  | _ => True

/-- A program that leaves the database and the socket alone and never wants to
send an error without a message. -/
abbrev Worker.Observes {α : Type} (program : Worker α) : Prop :=
  Program.Performs Op.Observes (· ≠ Fault.nullMessage) program

/-- The keys of the last listing. -/
def nextListing (listed : List Bytes) : (op : Op) → op.Answer → List Bytes
  | .redisCommand _ (.keys _), some (.array elements) => elements
  | _, _ => listed

/-- Operations of a worker that looks around: it reads only keys it knows and
keys of the last listing. -/
def Op.Browses (known : Bytes → Prop) (listed : List Bytes) : Op → Prop
  | .redisCommand _ (.get key) => known key ∨ key ∈ listed
  | .redisCommand _ request => request.ReadOnly
  | .sendto .. | .loadSockaddr _ => False
  | _ => True

theorem Op.Browses.observes {known : Bytes → Prop} {listed : List Bytes} {op : Op}
    (browses : op.Browses known listed) : op.Observes := by
  cases op with
  | redisCommand redis request => cases request <;> trivial
  | sendto address data => exact browses.elim
  | _ => trivial

/-- How a worker looks around. -/
def browsing (known : Bytes → Prop) : Program.Protocol Op Op.Answer Fault (List Bytes) where
  allows := Op.Browses known
  next := nextListing
  tolerates _ reason := reason ≠ .nullMessage

/-- A program that only looks around, wherever it starts. -/
structure Worker.Browses {α : Type} (known : Bytes → Prop) (program : Worker α) : Prop where
  follows : ∀ listed, Program.Follows (browsing known) (fun _ _ => True) listed program

namespace Worker.Browses

variable {α β : Type} {known : Bytes → Prop}

theorem done (result : α) : Browses known (.done result : Worker α) := ⟨fun _ => trivial⟩

theorem fault {reason : Fault} (harmless : reason ≠ .nullMessage) :
    Browses known (.fault reason : Worker α) := ⟨fun _ => harmless⟩

theorem perform {op : Op} (allowed : ∀ listed, op.Browses known listed) :
    Browses known (BtTracker.perform op) :=
  ⟨fun listed => ⟨allowed listed, fun _ => trivial⟩⟩

theorem ofOption {reason : Fault} (harmless : reason ≠ .nullMessage) (value : Option α) :
    Browses known (.ofOption reason value : Worker α) := by
  cases value with
  | none => exact fault harmless
  | some value => exact done value

theorem bind {program : Worker α} {rest : α → Worker β} (first : Browses known program)
    (second : ∀ result, Browses known (rest result)) : Browses known (program >>= rest) :=
  ⟨fun listed => Program.Follows.bind (first.follows listed) fun result listed _ =>
    (second result).follows listed⟩

/-- Looking around changes nothing. -/
theorem observes {program : Worker α} (browses : Browses known program) : program.Observes := by
  refine (Program.Follows.simulate (fun _ _ => True) ?_ ?_ (browses.follows []) trivial).mono ?_
  · exact fun _ _ _ _ allowed => ⟨allowed.observes, fun _ => trivial⟩
  · exact fun _ _ _ _ harmless => harmless
  · exact fun _ _ _ => trivial

end Worker.Browses

namespace World

theorem exec_of_observes {op : Op} (observes : op.Observes) (world : World) :
    (exec op world).2.store = world.store ∧ (exec op world).2.sent = world.sent := by
  cases op with
  | redisCommand redis request =>
      refine ⟨?_, rfl⟩
      rcases world.store.deliver_store (world.choices 0).delivery (world.choices 0).listing
        request with kept | executed
      · exact kept
      · exact executed.trans (Redis.Store.exec_readOnly .sorted _ observes)
  | sendto address data => exact observes.elim
  | _ => exact ⟨rfl, rfl⟩

/-- Observing programs change neither the database nor what was sent, whatever
the environment chooses and even when they end in a fault. -/
theorem run_of_observes {α : Type} {program : Worker α} (observes : program.Observes)
    (world : World) :
    (run program world).2.store = world.store ∧ (run program world).2.sent = world.sent :=
  Program.Performs.run_invariant exec
    (fun other => other.store = world.store ∧ other.sent = world.sent)
    (fun _ other observes same =>
      ⟨(exec_of_observes observes other).1.trans same.1,
        (exec_of_observes observes other).2.trans same.2⟩)
    observes ⟨rfl, rfl⟩

/-- A world some operations later, in front of the same database. -/
structure Later (steps : Nat) (world after : World) : Prop where
  store : after.store = world.store
  choices : ∀ position, after.choices position = world.choices (steps + position)

namespace Later

variable {steps : Nat} {world after : World}

theorem refl (world : World) : Later 0 world world :=
  ⟨rfl, fun position => congrArg world.choices (Nat.zero_add position).symm⟩

theorem trans {more : Nat} {last : World} (earlier : Later steps world after)
    (later : Later more after last) : Later (steps + more) world last := by
  refine ⟨later.store.trans earlier.store, fun position => ?_⟩
  rw [later.choices, earlier.choices, Nat.add_assoc]

theorem normal (later : Later steps world after) (normal : world.Normal) : after.Normal := by
  intro position
  rw [later.choices]
  exact normal _

/-- One operation that only looks. -/
theorem exec {op : Op} (observes : op.Observes) (world : World) :
    Later 1 world (World.exec op world).2 := by
  refine ⟨(exec_of_observes observes world).1, fun position => ?_⟩
  rw [choices_exec, Nat.add_comm]

theorem rand (world : World) : Later 1 world (World.exec .rand world).2 :=
  have observes : Op.rand.Observes := trivial
  exec observes world

end Later

/-- In a normal world a question is answered and changes nothing. -/
theorem Normal.run_redisCommand {world : World} (normal : world.Normal) (redis : Context)
    (request : Redis.Command) (readOnly : request.ReadOnly) :
    ∃ after listing,
      world.run (BtTracker.redisCommand (some redis) request) =
          (.ok (some (world.store.exec listing request).1), after) ∧ Later 1 world after := by
  have observes : (Op.redisCommand redis request).Observes := readOnly
  refine ⟨(world.command request).2, (world.choices 0).listing, ?_, .exec observes world⟩
  rw [redisCommand_some, run_perform, World.exec, normal.command]

end World

/-- A datagram as the receive loop hands it over, and the address it came from. -/
structure Datagram where
  params : BtJobParams
  sender : SockaddrIn

/-- A datagram and how the environment behaves while it is handled. -/
structure Arrival extends Datagram where
  choices : Nat → Choice

/-- A datagram received into a clean buffer and handled without incidents. -/
def Arrival.calm (sender : SockaddrIn) (datagram : Bytes) : Arrival where
  params := .received (fun _ => 0) datagram
  sender := sender
  choices := fun _ => .calm

/-- Every command is answered normally while the datagram is handled. -/
def Arrival.Normal (arrival : Arrival) : Prop :=
  ∀ position, (arrival.choices position).delivery = .normal

namespace World

/-- The world right after the datagram was received. -/
def receive (world : World) (arrival : Arrival) : World :=
  { world with
    siOther := arrival.sender
    choices := arrival.choices
    trace := []
    sent := [] }

/-- Handle one datagram from start to end. -/
def serve (host : Host) (config : BtConfig) (world : World) (arrival : Arrival) :
    Except Fault Unit × World :=
  (world.receive arrival).run (btRequestProcessor host config arrival.params)

end World

end BtTracker
