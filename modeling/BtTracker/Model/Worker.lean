import BtTracker.Foundation.Memory
import BtTracker.Foundation.Program
import BtTracker.Model.Types
import BtTracker.Redis.Command

/-!
# What a worker asks of its environment

The operations of a worker thread that reach outside its own stack: the
thread-local slot, hiredis, the random number generator, the shared socket
address and the socket.  The code of the tracker is a `Worker` program over
these operations, and undefined behaviour of the C code is a `Fault`.
-/

namespace BtTracker

open BtTracker.Foundation

/-- A `redisContext`, named by the order in which contexts are allocated. -/
abbrev Context := Nat

/-- Where `bt_redis_connect` connects to. -/
inductive Endpoint where
  | unixSocket (path : Bytes)
  | tcp (host : Bytes) (port : BitVec 16)
  deriving DecidableEq, Repr

/-- Outcome of `redisConnectWithTimeout` and its Unix socket variant: no context,
a context with its error flag set, or a working one. -/
inductive ConnectResult where
  | noMemory
  | failed (redis : Context)
  | opened (redis : Context)
  deriving DecidableEq, Repr

/-- `RAND_MAX` of the GNU C library. -/
def randMax : Nat := 2147483647

instance (priority := 1100) : NeZero (randMax + 1) := inferInstance

/-- Operations of a worker. -/
inductive Op where
  /-- `g_private_get(&redis_key)`. -/
  | privateGet
  /-- `g_private_replace(&redis_key, redis)`. -/
  | privateReplace (redis : Option Context)
  | redisConnect (endpoint : Endpoint) (timeout : BitVec 32)
  | redisFree (redis : Context)
  /-- One command and its reply, sent at once or from a pipeline. -/
  | redisCommand (redis : Context) (command : Redis.Command)
  | rand
  /-- `malloc` of a `bt_peer_t`, told by the bytes of it that are never written. -/
  | malloc
  /-- Read the socket address behind a pointer. -/
  | loadSockaddr (address : SockaddrPtr)
  /-- Send a block to the socket address behind a pointer. -/
  | sendto (address : SockaddrPtr) (data : Block)
  deriving DecidableEq, Repr

/-- What the environment answers.  A null reply, or `REDIS_ERR` for a pipelined
command, is `none`. -/
@[reducible] def Op.Answer : Op → Type
  | .privateGet => Option Context
  | .privateReplace _ => Unit
  | .redisConnect .. => ConnectResult
  | .redisFree _ => Unit
  | .redisCommand .. => Option Redis.Reply
  | .rand => Fin (randMax + 1)
  | .malloc => Octets 6
  | .loadSockaddr _ => SockaddrIn
  | .sendto .. => Unit

/-- Undefined behaviour a worker may run into. -/
inductive Fault where
  /-- A command on a null `redisContext`. -/
  | nullContext
  /-- `strlen` of a null error message. -/
  | nullMessage
  /-- A peer record read through a null `reply->str`. -/
  | nullPeer
  /-- A peer record read past the end of the reply text. -/
  | shortPeer
  /-- An element of a reply array outside of it. -/
  | elementIndex
  /-- A copy past the end of its destination. -/
  | overrun
  /-- `freeReplyObject` of a pointer that holds no reply. -/
  | badFree
  /-- A value that was never assigned is used. -/
  | unassigned
  /-- A loop whose counter wraps before it reaches its bound. -/
  | endlessLoop
  deriving DecidableEq, Repr

/-- Code of a worker thread. -/
abbrev Worker (α : Type) := Program Op Op.Answer Fault α

/-- Perform one operation. -/
abbrev perform (op : Op) : Worker op.Answer := Program.perform op

/-- `redisCommand`, and `redisAppendCommand` with its `redisGetReply`. -/
def redisCommand (redis : Option Context) (command : Redis.Command) :
    Worker (Option Redis.Reply) :=
  match redis with
  | none => .fault .nullContext
  | some redis => perform (Op.redisCommand redis command)

@[simp] theorem redisCommand_some (redis : Context) (command : Redis.Command) :
    redisCommand (some redis) command = perform (Op.redisCommand redis command) := rfl

end BtTracker
