import BtTracker.Model.Data
import Mathlib.Data.List.OfFn

/-!
# The key grammar

The tracker files connections, peers, counters and lists of info hashes in one
keyspace, under textual keys.  `KeyName` is what a key stands for, and encoding
is injective whatever the bytes of the prefix, the info hash, the peer id and
the connection identifier.
-/

namespace BtTracker

open BtTracker.Foundation

/-! ## Hexadecimal texts -/

/-- Value of a lowercase hexadecimal digit. -/
def hexValue (digit : Byte) : Byte := if digit ≤ 57 then digit - 48 else digit - 87

/-- Read digits back pairwise, high nibble first. -/
def readHex : Bytes → Bytes
  | high :: low :: rest => (hexValue high <<< 4 ||| hexValue low) :: readHex rest
  | _ => []

private theorem hexStr_getD : ∀ nibble : Fin 16,
    hexValue (hexStr.getD nibble 0) = BitVec.ofNat 8 nibble := by
  decide +kernel

private theorem nibbles_lt (byte : Byte) :
    ((byte.signExtend 32).sshiftRight 4 &&& 0xF).toNat < 16 ∧
      (byte.signExtend 32 &&& 0x0F).toNat < 16 := by
  constructor
  · rw [BitVec.toNat_and]
    exact Nat.lt_succ_of_le Nat.and_le_right
  · rw [BitVec.toNat_and]
    exact Nat.lt_succ_of_le Nat.and_le_right

/-- The sign extension of a negative byte is masked out again. -/
private theorem nibbles_join (byte : Byte) :
    BitVec.ofNat 8 ((byte.signExtend 32).sshiftRight 4 &&& 0xF).toNat <<< 4 |||
      BitVec.ofNat 8 (byte.signExtend 32 &&& 0x0F).toNat = byte := by
  revert byte
  decide +kernel

private theorem hexDigits_subset (byte : Byte) : hexDigits byte ⊆ hexStr := by
  obtain ⟨high, low⟩ := nibbles_lt byte
  intro digit member
  simp only [hexDigits, List.mem_cons, List.not_mem_nil, or_false] at member
  rcases member with rfl | rfl
  · rw [List.getD_eq_getElem?_getD, List.getElem?_eq_getElem high]
    exact List.getElem_mem _
  · rw [List.getD_eq_getElem?_getD, List.getElem?_eq_getElem low]
    exact List.getElem_mem _

theorem readHex_flatMap (bin : Bytes) : readHex (bin.flatMap hexDigits) = bin := by
  induction bin with
  | nil => rfl
  | cons byte rest ih =>
      obtain ⟨high, low⟩ := nibbles_lt byte
      simp only [List.flatMap_cons, hexDigits, List.cons_append, List.nil_append, readHex]
      rw [hexStr_getD ⟨_, high⟩, hexStr_getD ⟨_, low⟩, nibbles_join, ih]

theorem length_flatMap_hexDigits (bin : Bytes) :
    (bin.flatMap hexDigits).length = 2 * bin.length := by
  induction bin with
  | nil => rfl
  | cons byte rest ih =>
      rw [List.flatMap_cons, List.length_append, ih, List.length_cons]
      simp only [hexDigits, List.length_cons, List.length_nil]
      omega

theorem flatMap_hexDigits_subset (bin : Bytes) : bin.flatMap hexDigits ⊆ hexStr := by
  intro digit member
  obtain ⟨byte, _, member⟩ := List.mem_flatMap.mp member
  exact hexDigits_subset byte member

/-- Read as a C string, the array holds all the digits. -/
theorem cString_btBytearrayToHexarray (bin : Bytes) :
    cString (btBytearrayToHexarray bin) = bin.flatMap hexDigits := by
  have noTerminator : ∀ digit ∈ bin.flatMap hexDigits, decide (digit ≠ 0) = true := by
    have digits : ∀ digit ∈ hexStr, decide (digit ≠ 0) = true := by decide +kernel
    exact fun digit member => digits digit (flatMap_hexDigits_subset bin member)
  rw [cString, btBytearrayToHexarray, List.takeWhile_append_of_pos noTerminator]
  simp

/-- The text that stands for an info hash in keys and in the lists of info
hashes. -/
def infoHashText (infoHash : Octets 20) : Bytes :=
  cString (btBytearrayToHexarray (List.ofFn infoHash))

@[simp] theorem length_infoHashText (infoHash : Octets 20) :
    (infoHashText infoHash).length = 40 := by
  rw [infoHashText, cString_btBytearrayToHexarray, length_flatMap_hexDigits,
    List.length_ofFn]

/-- Nothing in the text of an info hash has a meaning in a pattern. -/
theorem isLiteral_of_mem_infoHashText {infoHash : Octets 20} {byte : Byte}
    (member : byte ∈ infoHashText infoHash) : Glob.IsLiteral byte := by
  have digits : ∀ digit ∈ hexStr, Glob.IsLiteral digit := by decide +kernel
  rw [infoHashText, cString_btBytearrayToHexarray] at member
  exact digits byte (flatMap_hexDigits_subset _ member)

theorem infoHashText_injective : Function.Injective infoHashText := by
  intro left right equal
  simp only [infoHashText, cString_btBytearrayToHexarray] at equal
  have bytes := congrArg readHex equal
  rw [readHex_flatMap, readHex_flatMap] at bytes
  exact List.ofFn_injective bytes

/-! ## Names -/

/-- What a key of the tracker stands for. -/
inductive KeyName where
  | connection (connectionId : BitVec 64)
  | peer (infoHash : Octets 20) (isSeeder : Bool) (peerId : Octets 20)
  | torrent (infoHash : Octets 20)
  | whitelist
  | blacklist

variable (host : Host) (config : BtConfig)

namespace KeyName

/-- The key a name is filed under. -/
def encode : KeyName → Bytes
  | connection connectionId => connectionKey host config connectionId
  | peer infoHash isSeeder peerId => peerKey config (infoHashText infoHash) isSeeder peerId
  | torrent infoHash => infoHashKey config (infoHashText infoHash)
  | whitelist => restrictionKey config (ascii "wl")
  | blacklist => restrictionKey config (ascii "bl")

/-- What follows the prefix in a key. -/
def suffix : KeyName → Bytes
  | connection connectionId => ascii ":conn:" ++ host.order.store connectionId
  | peer infoHash isSeeder peerId =>
      ascii ":pr:" ++ (infoHashText infoHash ++
        ((ascii ":" ++ peerPrefix isSeeder ++ ascii ":") ++ List.ofFn peerId))
  | torrent infoHash => ascii ":ih:" ++ infoHashText infoHash
  | whitelist => ascii ":ih:wl"
  | blacklist => ascii ":ih:bl"

theorem encode_eq (name : KeyName) :
    name.encode host config = config.redisKeyPrefix ++ name.suffix host := by
  cases name with
  | connection connectionId => simp [encode, suffix, connectionKey]
  | peer infoHash isSeeder peerId => simp [encode, suffix, peerKey, swarmPrefix]
  | torrent infoHash => simp [encode, suffix, infoHashKey]
  | whitelist | blacklist =>
      rw [encode, suffix, restrictionKey, List.append_assoc]
      rfl

private theorem length_peerPrefix (isSeeder : Bool) :
    (ascii ":" ++ peerPrefix isSeeder ++ ascii ":").length = 4 := by
  cases isSeeder <;> rfl

private theorem peerPrefix_injective : Function.Injective peerPrefix := by
  intro left right equal
  cases left <;> cases right <;> first | rfl | exact absurd equal (by decide)

private theorem suffix_peer_injective {leftHash rightHash : Octets 20}
    {leftSeeder rightSeeder : Bool} {leftPeer rightPeer : Octets 20}
    (equal : (peer leftHash leftSeeder leftPeer).suffix host =
      (peer rightHash rightSeeder rightPeer).suffix host) :
    peer leftHash leftSeeder leftPeer = peer rightHash rightSeeder rightPeer := by
  obtain ⟨hashes, tails⟩ := List.append_inj (List.append_cancel_left equal) (by simp)
  obtain ⟨roles, peers⟩ := List.append_inj tails (by simp only [length_peerPrefix])
  have sameRole : leftSeeder = rightSeeder :=
    peerPrefix_injective (List.append_cancel_left (List.append_cancel_right roles))
  rw [infoHashText_injective hashes, sameRole, List.ofFn_injective peers]

/-- An info hash has forty digits, so no counter is filed under the key of a
list. -/
private theorem suffix_torrent_ne (infoHash : Octets 20) (list : Bytes)
    (short : list.length = 6) : (torrent infoHash).suffix host ≠ list := by
  intro equal
  have lengths := congrArg List.length equal
  rw [short] at lengths
  simp [suffix, ascii] at lengths

theorem suffix_injective : Function.Injective (KeyName.suffix host) := by
  intro left right equal
  cases left with
  | connection leftId =>
      cases right with
      | connection rightId =>
          rw [host.order.store_injective rfl (List.append_cancel_left equal)]
      | _ => simp [suffix, ascii] at equal
  | peer leftHash leftSeeder leftPeer =>
      cases right with
      | peer rightHash rightSeeder rightPeer => exact suffix_peer_injective host equal
      | _ => simp [suffix, ascii] at equal
  | torrent leftHash =>
      cases right with
      | torrent rightHash =>
          rw [infoHashText_injective (List.append_cancel_left equal)]
      | whitelist | blacklist => exact absurd equal (suffix_torrent_ne host leftHash _ rfl)
      | _ => simp [suffix, ascii] at equal
  | whitelist =>
      cases right with
      | whitelist => rfl
      | torrent rightHash => exact absurd equal.symm (suffix_torrent_ne host rightHash _ rfl)
      | _ => simp [suffix, ascii] at equal
  | blacklist =>
      cases right with
      | blacklist => rfl
      | torrent rightHash => exact absurd equal.symm (suffix_torrent_ne host rightHash _ rfl)
      | _ => simp [suffix, ascii] at equal

/-- Different names have different keys, for every prefix. -/
theorem encode_injective : Function.Injective (KeyName.encode host config) := by
  intro left right equal
  rw [encode_eq, encode_eq] at equal
  exact suffix_injective host (List.append_cancel_left equal)

@[simp] theorem encode_inj {left right : KeyName} :
    left.encode host config = right.encode host config ↔ left = right :=
  (encode_injective host config).eq_iff

theorem encode_peer_ne_connectionKey (infoHash : Octets 20) (isSeeder : Bool)
    (peerId : Octets 20) (connectionId : BitVec 64) :
    (peer infoHash isSeeder peerId).encode host config ≠
      connectionKey host config connectionId := by
  intro equal
  have same : peer infoHash isSeeder peerId = connection connectionId :=
    encode_injective host config equal
  cases same

/-- The keys only the operator writes. -/
def IsList : KeyName → Prop
  | .whitelist | .blacklist => True
  | _ => False

variable {host config} in
theorem encode_ne_lists {name : KeyName} (notList : ¬name.IsList) :
    name.encode host config ≠ restrictionKey config (ascii "wl") ∧
      name.encode host config ≠ restrictionKey config (ascii "bl") := by
  have notWhitelist : name.encode host config ≠ whitelist.encode host config := by
    rw [Ne, encode_inj]
    rintro rfl
    exact notList trivial
  have notBlacklist : name.encode host config ≠ blacklist.encode host config := by
    rw [Ne, encode_inj]
    rintro rfl
    exact notList trivial
  exact ⟨notWhitelist, notBlacklist⟩

/-! ## Swarms -/

/-- What follows the prefix of the tracker in the prefix of a swarm. -/
private theorem swarmPrefix_eq (infoHash : Octets 20) (isSeeder : Bool) :
    swarmPrefix config (infoHashText infoHash) isSeeder =
      config.redisKeyPrefix ++ (ascii ":pr:" ++ (infoHashText infoHash ++
        (ascii ":" ++ peerPrefix isSeeder ++ ascii ":"))) := by
  simp [swarmPrefix]

/-- Only the keys of a swarm start with its prefix. -/
theorem eq_peer_of_swarmPrefix {infoHash : Octets 20} {isSeeder : Bool} {name : KeyName}
    (starts : swarmPrefix config (infoHashText infoHash) isSeeder <+: name.encode host config) :
    ∃ peerId, name = peer infoHash isSeeder peerId := by
  obtain ⟨rest, equal⟩ := starts
  rw [encode_eq, swarmPrefix_eq, List.append_assoc] at equal
  have suffixes := List.append_cancel_left equal
  cases name with
  | connection _ | torrent _ | whitelist | blacklist => simp [suffix, ascii] at suffixes
  | peer otherHash otherSeeder peerId =>
      rw [suffix, List.append_assoc (ascii ":pr:"),
        List.append_assoc (infoHashText infoHash)] at suffixes
      obtain ⟨hashes, tails⟩ := List.append_inj (List.append_cancel_left suffixes) (by simp)
      obtain ⟨roles, _⟩ := List.append_inj tails (by simp only [length_peerPrefix])
      have sameRole : isSeeder = otherSeeder :=
        peerPrefix_injective (List.append_cancel_left (List.append_cancel_right roles))
      exact ⟨peerId, by rw [infoHashText_injective hashes, sameRole]⟩

end KeyName

/-- A tracker whose prefix has no meaning in a pattern. -/
def BtConfig.Plain : Prop := ∀ byte ∈ config.redisKeyPrefix, Glob.IsLiteral byte

instance : Decidable config.Plain := inferInstanceAs (Decidable (∀ byte ∈ _, _))

variable {config}

theorem BtConfig.Plain.swarmPrefix (plain : config.Plain) (infoHash : Octets 20)
    (isSeeder : Bool) :
    ∀ byte ∈ BtTracker.swarmPrefix config (infoHashText infoHash) isSeeder,
      Glob.IsLiteral byte := by
  have fixed : ∀ byte ∈ ascii ":pr:" ++ (ascii ":" ++ peerPrefix isSeeder ++ ascii ":"),
      Glob.IsLiteral byte := by
    cases isSeeder <;> decide +kernel
  intro byte member
  simp only [BtTracker.swarmPrefix, List.mem_append] at member fixed
  rcases member with ((((inPrefix | tag) | hash) | colon) | role) | colon
  · exact plain byte inPrefix
  · exact fixed byte (.inl tag)
  · exact isLiteral_of_mem_infoHashText hash
  · exact fixed byte (.inr (.inl (.inl colon)))
  · exact fixed byte (.inr (.inl (.inr role)))
  · exact fixed byte (.inr (.inr colon))

/-- The pattern of a swarm lists the keys of its peers and no other key of the
tracker. -/
theorem BtConfig.Plain.isMatch_encode (plain : config.Plain) {infoHash : Octets 20}
    {isSeeder : Bool} {name : KeyName} :
    Glob.isMatch (BtTracker.swarmPrefix config (infoHashText infoHash) isSeeder ++ ascii "*")
        (name.encode host config) = true ↔
      ∃ peerId, name = .peer infoHash isSeeder peerId := by
  rw [Glob.isMatch_literals_star _ _ (plain.swarmPrefix infoHash isSeeder)]
  constructor
  · exact KeyName.eq_peer_of_swarmPrefix host config
  · rintro ⟨peerId, rfl⟩
    exact List.prefix_append _ _

end BtTracker
