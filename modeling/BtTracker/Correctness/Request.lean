import BtTracker.Correctness.Keys
import BtTracker.Semantics.World

/-!
# What a datagram asks for

The fields of a datagram as the code decodes them, the keys it is concerned with
and the commands the tracker sends on its behalf.
-/

namespace BtTracker

open BtTracker.Foundation

namespace Datagram

variable (host : Host) (config : BtConfig) (datagram : Datagram)

/-- The header of the datagram. -/
def request : BtReq := btReadRequestData host datagram.params.buff

/-- The datagram read as an announce. -/
def announce : BtAnnounceReq := btReadAnnounceRequestData host datagram.params.buff

/-- The type of request, if the action word is a known one. -/
def action : Option BtAction := BtAction.ofWord? (datagram.request host).action

/-- The announce event, if the event word is a known one. -/
def event : Option BtAnnounceEvent := BtAnnounceEvent.ofWord? (datagram.announce host).event

/-- Whether the announcing peer is a seeder. -/
def isSeeder : Bool := decide ((datagram.announce host).left = 0)

/-- The announce registers the peer. -/
def Registers : Prop :=
  datagram.event host = some .none ∨ datagram.event host = some .started

instance : Decidable (datagram.Registers host) := inferInstanceAs (Decidable (_ ∨ _))

/-- The datagram is shorter than `bt_valid_request` wants it. -/
def TooShort : Prop :=
  (datagram.action host = some .announce ∧ datagram.params.buflen < 20) ∨
    (datagram.action host = some .scrape ∧ datagram.params.buflen < 8)

/-! ## Keys -/

/-- The key of the connection identifier. -/
def connectionKey : Bytes :=
  BtTracker.connectionKey host config (datagram.request host).connectionId

/-- What the key of the announcing peer under a role stands for. -/
def peerKeyName (isSeeder : Bool) : KeyName :=
  .peer (datagram.announce host).infoHash isSeeder (datagram.announce host).peerId

/-- The key of the announcing peer under a role. -/
def recordKey (isSeeder : Bool) : Bytes :=
  (datagram.peerKeyName host isSeeder).encode host config

/-- The key of the announced torrent. -/
def torrentKey : Bytes :=
  (KeyName.torrent (datagram.announce host).infoHash).encode host config

/-! ## Commands -/

/-- The record of the announcing peer when the sender has the given address and
`malloc` leaves the given bytes. -/
def recordFrom (sender : SockaddrIn) (padding : Octets 6) : BtPeer :=
  newPeer (datagram.announce host) (ntohl host sender.sAddr) padding

/-- The record of the announcing peer. -/
def record (padding : Octets 6) : BtPeer := datagram.recordFrom host datagram.sender padding

/-- The command of `bt_insert_peer`. -/
def insertCommand (padding : Octets 6) : Redis.Command :=
  .setex (datagram.recordKey host config (datagram.isSeeder host)) config.peerTtl
    ((datagram.record host padding).image host)

/-- The command of `bt_remove_peer`. -/
def removeCommand : Redis.Command :=
  .del (datagram.recordKey host config (datagram.isSeeder host))

/-- The command of `bt_promote_peer`. -/
def promoteCommand : Redis.Command :=
  .rename (datagram.recordKey host config false) (datagram.recordKey host config true)

/-- The command of `bt_increment_downloads`. -/
def countCommand : Redis.Command :=
  .hincrby (datagram.torrentKey host config) (ascii "downs") 1

end Datagram

end BtTracker
