import BtTracker.Model.Handlers

/-!
# The request processor

`bt_request_processor` of `pool.c`: one job of a worker thread, from the raw
datagram to the response.
-/

namespace BtTracker

open BtTracker.Foundation

/-- The message sent when no connection to Redis can be made. -/
def storageUnavailable : Bytes :=
  ascii "Tracker temporarily unavailable: data storage is not working"

/-- The block behind the label `redis_connect`: open a context and keep it in the
thread-local slot. -/
def openRedis (config : BtConfig) : Worker (Option Context) := do
  let redis ← btRedisConnect config.redisSocketPath config.redisHost config.redisPort
    (config.redisTimeout * 1000) config.redisDb
  perform (Op.privateReplace redis)
  pure redis

/-- The context a job uses: the one of the thread while it answers a ping, or a
new one. -/
def acquireRedis (config : BtConfig) : Worker (Option Context) := do
  let redis ← perform Op.privateGet
  match redis with
  | none => openRedis config
  | some _ =>
      if ← btRedisPing redis then pure redis else openRedis config

/-- Hand the request to its handler.  Without a connection the action has been
replaced, so the request is answered with the error that was recorded. -/
def dispatch (host : Host) (config : BtConfig) (params : BtJobParams) (request : BtReq)
    (error : Option Bytes) (redis : Option Context) : Worker (Option Block) :=
  match BtAction.ofWord? request.action with
  | some .connect => btHandleConnection host request config params.buflen redis
  | some .announce =>
      btHandleAnnounce host request config params.buff params.buflen params.fromAddr redis
  | some .scrape => btHandleScrape host request config params.buff params.buflen redis
  | some .error => some <$> btSendError host request error
  | none => pure none

/-- Send a response, if there is one. -/
def respond (params : BtJobParams) : Option Block → Worker Unit
  | none => pure ()
  | some data => perform (Op.sendto params.fromAddr data)

def btRequestProcessor (host : Host) (config : BtConfig) (params : BtJobParams) :
    Worker Unit := do
  let request := btReadRequestData host params.buff
  let redis ← acquireRedis config
  let response ←
    match redis with
    | none =>
        dispatch host config params { request with action := BtAction.error.toWord }
          (some storageUnavailable) none
    | some redis => dispatch host config params request none (some redis)
  respond params response

end BtTracker
