import BtTracker.Model.Data
import BtTracker.Model.Net

/-!
# Request handlers

`handshake.c`, `error.c`, `connect.c`, `announce.c` and `scrape.c`.  A handler
returns the response to send, or nothing when the request is ignored.
-/

namespace BtTracker

open BtTracker.Foundation

variable (host : Host)

/-- Whether the incoming request should be accepted. -/
def btValidRequest (redis : Option Context) (config : BtConfig) (req : BtReq)
    (packetlen : Nat) : Worker Bool :=
  match BtAction.ofWord? req.action with
  | some .connect => pure (decide (btProtocolId = req.connectionId ∧ packetlen ≥ 16))
  | some .announce =>
      if packetlen ≥ 20 then btConnectionValid host redis config req.connectionId
      else pure false
  | some .scrape =>
      if packetlen ≥ 8 then btConnectionValid host redis config req.connectionId
      else pure false
  | _ => pure false

/-- `bt_send_error`; the message is a pointer and may be null. -/
def btSendError (request : BtReq) (msg : Option Bytes) : Worker Block :=
  match msg with
  | none => .fault .nullMessage
  | some msg =>
      let reqCopy : BtReq := { request with action := BtAction.error.toWord }
      .ofOption .overrun
        (btWriteErrorData host (Block.malloc (64 + msg.length + 1)) reqCopy msg)

/-! ## Connections -/

def btSerializeConnectionResponse (responseData : BtConnectionResp) : Worker Block :=
  .ofOption .overrun (btWriteConnectionData host (Block.malloc 16) responseData)

def btHandleConnection (request : BtReq) (config : BtConfig) (buflen : Nat)
    (redis : Option Context) : Worker (Option Block) := do
  if !(← btValidRequest host redis config request buflen) then
    pure none
  else
    let connectionId ← btRandomInt64 host
    btInsertConnection host redis config connectionId
    some <$> btSerializeConnectionResponse host
      { action := request.action
        transactionId := request.transactionId
        connectionId := connectionId }

/-! ## Announces -/

def btUpdatePeerList (redis : Option Context) (config : BtConfig)
    (announceRequest : BtAnnounceReq) (clientAddr : SockaddrPtr) (infoHashStr : Bytes)
    (isSeeder : Bool) : Worker Unit :=
  match BtAnnounceEvent.ofWord? announceRequest.event with
  | some .stopped => btRemovePeer redis config infoHashStr announceRequest.peerId isSeeder
  | some .completed => btPromotePeer redis config infoHashStr announceRequest.peerId
  | some .none | some .started => do
      let sockaddr ← perform (Op.loadSockaddr clientAddr)
      let peer ← btNewPeer announceRequest (ntohl host sockaddr.sAddr)
      btInsertPeer host redis config infoHashStr announceRequest.peerId peer isSeeder
  | none => pure ()

def btSerializeAnnounceResponse (responseData : BtAnnounceResp) (peerCount : Nat)
    (peers : List BtPeerAddr) : Worker Block :=
  .ofOption .overrun do
    let block ← btWriteAnnounceResponseData host (Block.malloc (20 + peerCount * 6)) responseData
    btWriteAnnouncePeerData host block peers

/-- Number of peers to retrieve from the swarm. -/
def clampNumWant (config : BtConfig) (numWant : BitVec 32) : BitVec 32 :=
  if numWant.toInt < 0 ∨ numWant.toInt > config.announceMaxNumwant.toNat then
    config.announceMaxNumwant.setWidth 32
  else
    numWant

/-- The part of `bt_handle_announce` that picks the peers of the response: peers
of the opposite role first, siblings to fill the gap. -/
def selectPeers (redis : Option Context) (config : BtConfig) (infoHashStr : Bytes)
    (numWant : BitVec 32) (isSeeder : Bool) : Worker (List BtPeerAddr × Nat) := do
  let (peers, peerCount) ← btPeerList host redis config infoHashStr numWant 0 (!isSeeder)
  if (peerCount : Int) < numWant.toInt then
    let (complement, complementCount) ← btPeerList host redis config infoHashStr
      (numWant - BitVec.ofNat 32 peerCount) 0 isSeeder
    if complement ≠ [] ∧ complementCount > 0 then
      pure (peers ++ complement, peerCount + complementCount)
    else
      pure (peers, peerCount)
  else
    pure (peers, peerCount)

/-- The part of `bt_handle_announce` after the peer list was updated. -/
def answerAnnounce (request : BtReq) (config : BtConfig) (announceRequest : BtAnnounceReq)
    (infoHashStr : Bytes) (isSeeder : Bool) (redis : Option Context) : Worker Block := do
  let numWant := clampNumWant config announceRequest.numWant
  let (peers, peerCount) ← selectPeers host redis config infoHashStr numWant isSeeder
  let stats ← btGetTorrentStats redis config infoHashStr .unassigned
  let leechers ← .ofOption .unassigned stats.leechers
  let seeders ← .ofOption .unassigned stats.seeders
  btSerializeAnnounceResponse host
    { action := request.action
      transactionId := request.transactionId
      interval := config.announceWaitTime
      leechers := leechers
      seeders := seeders }
    peerCount peers

def btHandleAnnounce (request : BtReq) (config : BtConfig) (buff : RecvBuffer) (buflen : Nat)
    (clientAddr : SockaddrPtr) (redis : Option Context) : Worker (Option Block) := do
  if !(← btValidRequest host redis config request buflen) then
    pure none
  else
    let announceRequest := btReadAnnounceRequestData host buff
    let infoHashStr := cString (btBytearrayToHexarray (List.ofFn announceRequest.infoHash))
    if ← btInfoHashBlacklisted redis config infoHashStr then
      some <$> btSendError host request (some (ascii "Blacklisted info hash"))
    else
      let isSeeder := decide (announceRequest.left = 0)
      btUpdatePeerList host redis config announceRequest clientAddr infoHashStr isSeeder
      some <$> answerAnnounce host request config announceRequest infoHashStr isSeeder redis

/-! ## Scrapes -/

def btSerializeScrapeResponse (responseData : BtScrapeResp) : Worker Block :=
  .ofOption .overrun
    (btWriteScrapeResponseData host (Block.malloc (8 + responseData.scrapeEntries.length * 12))
      responseData)

/-- The `i`-th info hash of a scrape request, read from the copied bytes. -/
def BtScrapeReq.hashAt (request : BtScrapeReq) (i : Nat) : Worker Bytes :=
  let bytes := (request.infoHash.drop (i * 20)).take 20
  if bytes.length = 20 then pure bytes else .fault .unassigned

/-- The statistics of one torrent as a scrape sends them. -/
def scrapeEntry (redis : Option Context) (config : BtConfig) (infoHashStr : Bytes) :
    Worker BtScrapeEntry := do
  let stats ← btGetTorrentStats redis config infoHashStr .unassigned
  let seeders ← .ofOption .unassigned stats.seeders
  let downloads ← .ofOption .unassigned stats.downloads
  let leechers ← .ofOption .unassigned stats.leechers
  pure ⟨seeders, downloads, leechers⟩

/-- The loop of `bt_handle_scrape`.  Its index is a `uint8_t`; after 256 rounds
it is back at its first value, so a loop that has not ended by then never does.
The result is `none` when some info hash is refused. -/
def scrapeLoop (redis : Option Context) (config : BtConfig) (request : BtScrapeReq) :
    (rounds : Nat) → (i : BitVec 8) → List BtScrapeEntry →
      Worker (Option (List BtScrapeEntry))
  | 0, _, _ => .fault .endlessLoop
  | rounds + 1, i, entries =>
      if i.toNat < request.infoHashLen then do
        let infoHash ← request.hashAt i.toNat
        let infoHashStr := cString (btBytearrayToHexarray infoHash)
        if ← btInfoHashBlacklisted redis config infoHashStr then
          pure none
        else
          let stats ← scrapeEntry redis config infoHashStr
          scrapeLoop redis config request rounds (i + 1) (stats :: entries)
      else
        pure (some entries)

/-- The part of `bt_handle_scrape` after decoding. -/
def answerScrape (request : BtReq) (config : BtConfig) (scrapeRequest : BtScrapeReq)
    (redis : Option Context) : Worker Block := do
  match ← scrapeLoop redis config scrapeRequest 256 0 [] with
  | none => btSendError host request (some (ascii "Blacklisted info hash"))
  | some entries =>
      btSerializeScrapeResponse host
        { action := request.action
          transactionId := request.transactionId
          scrapeEntries := entries.reverse }

def btHandleScrape (request : BtReq) (config : BtConfig) (buff : RecvBuffer) (buflen : Nat)
    (redis : Option Context) : Worker (Option Block) := do
  if !(← btValidRequest host redis config request buflen) then
    pure none
  else
    let scrapeRequest ← .ofOption .overrun (btReadScrapeRequestData host buff buflen)
    some <$> answerScrape host request config scrapeRequest redis

end BtTracker
