import DevP2P.Lib.Secp256k1
import DevP2P.Rlp.Appends
import DevP2P.Rlp.Fields

/-!
# Packets of discovery v4 (`discv4/discv4_packet.cpp`, `discv4_pong.cpp`, `discv4_enr_response.cpp`)

A packet is the hash of the rest, a recoverable signature, a type byte and an RLP list.

* `Discv4Primitives` : the third-party functions;
* `signPacket`, `verifyPacket` : the hash and the signature in front of a payload;
* `encodePong`, `pongPayload` : the answer to a PING; `encodePong_eq` : it is always encoded;
* `parsePong`, `parseEnrResponse` : the replies; `parseEthForkId` : the fork id in the record of an ENR response.
-/

namespace DevP2P.Discv4
open DevP2P.Lib DevP2P.Rlp

def kWireHashSize : Nat := 32
def kWireSigSize : Nat := 65
def kWirePacketTypeSize : Nat := 1
def kWireHeaderSize : Nat := kWireHashSize + kWireSigSize + kWirePacketTypeSize
def kWirePacketTypeOffset : Nat := kWireHashSize + kWireSigSize
def kNodeIdSize : Nat := 64
def kIPv4Size : Nat := 4
def kPacketExpirySeconds : Nat := 60

def kPacketTypePing : UInt8 := 0x01
def kPacketTypePong : UInt8 := 0x02
def kPacketTypeFindNode : UInt8 := 0x03
def kPacketTypeNeighbours : UInt8 := 0x04
def kPacketTypeEnrRequest : UInt8 := 0x05
def kPacketTypeEnrResponse : UInt8 := 0x06

abbrev Hash := FixedBytes 32
abbrev NodeId := FixedBytes 64
abbrev IPv4 := FixedBytes 4
abbrev Uint16 := UIntTy.Val .uint16
abbrev Uint32 := UIntTy.Val .uint32
abbrev Uint64 := UIntTy.Val .uint64

inductive Discv4Error
  | kPacketTooSmall
  | kHashMismatch
  | kSignatureParseFailed
  | kSignatureRecoveryFailed
  | kSigningFailed
  | kContextCreationFailed
deriving DecidableEq

structure Discv4Primitives where
  secp : Secp256k1
  keccak256 : Bytes → Hash
  /-- `secp256k1_ecdsa_recoverable_signature_parse_compact`, with the recovery id. -/
  recoverableParseCompact : FixedBytes 64 → Nat → Option secp.RecoverableSignature
  /-- `secp256k1_ecdsa_recover`. -/
  ecdsaRecover : secp.RecoverableSignature → Hash → Option secp.PubKey
  /-- `asio::ip::address::to_string` on an address of version 4. -/
  addressToString : IPv4 → Bytes

section

variable (env : Discv4Primitives)

/-- `discv4_client::sign_packet`; the payload starts with the type byte. -/
def signPacket (privateKey : FixedBytes 32) (payload : Bytes) : Except Discv4Error Bytes := do
  let msgHash := env.keccak256 payload
  rejectIf (env.secp.contextCreate = false) .kContextCreationFailed
  let sig ← Outcome.unwrap (env.secp.signRecoverable msgHash privateKey) .kSigningFailed
  let compact := env.secp.recoverableSerializeCompact sig
  let sigBytes := compact.1.bytes ++ [UInt8.ofNat compact.2.val]
  let outerHash := env.keccak256 (sigBytes ++ payload)
  return outerHash.bytes ++ sigBytes ++ payload

/-- `discv4_client::verify_packet`: the key that signed the packet, if the hash in front is the one of the rest. -/
def verifyPacket (data : Bytes) : Except Discv4Error NodeId := do
  rejectIf (data.length < kWireHeaderSize) .kPacketTooSmall
  let sigData := (data.drop kWireHashSize).take kWireSigSize
  let payload := data.drop (kWireHashSize + kWireSigSize)
  let computedHash := env.keccak256 (sigData ++ payload)
  rejectIf (data.take kWireHashSize ≠ computedHash.bytes) .kHashMismatch
  let msgHash := env.keccak256 payload
  rejectIf (env.secp.contextCreate = false) .kContextCreationFailed
  let recid := (Bytes.at sigData (kWireSigSize - 1)).toNat
  let sig ← Outcome.unwrap (env.recoverableParseCompact (.load _ sigData) recid) .kSignatureParseFailed
  let pubkey ← Outcome.unwrap (env.ecdsaRecover sig msgHash) .kSignatureRecoveryFailed
  return .load _ ((env.secp.serializeUncompressed pubkey).bytes.drop kWirePacketTypeSize)

end

/-! ## PONG -/

structure Discv4Pong where
  ip : IPv4
  udpPort : Uint16
  tcpPort : Uint16
  pingHash : Hash
  expiration : Uint32
  ersErq : Uint64
deriving DecidableEq

def encodePong (ip : IPv4) (port tcpPort : Uint16) (pingHash : Hash) (expiration : Uint32) : EncodeM Bytes :=
  encodeListOf do
    nestedList do
      addBytes ip.bytes
      addUInt port
      addUInt tcpPort
    addBytes pingHash.bytes
    addUInt expiration

def openList : DecodeM Nat := do
  let d ← get
  let isList ← Stateful.lift d.isList
  rejectIf (isList = false) .kUnexpectedString
  readListHeaderBytes

/-- `while (!decoder.IsFinished()) { SkipItem }`, with room for `fuel` items. -/
def skipRest : Nat → DecodeM Unit
  | 0 => pure ()
  | fuel + 1 => do
    let d ← get
    if d.isFinished then return ()
    else do
      skipItem
      skipRest fuel

/-- `discv4_pong::Parse`, behind its checks of the size and the type. -/
def readPong : DecodeM Discv4Pong := do
  let _ ← openList
  let _ ← openList
  let ip ← readArray 4
  let udpPort ← readUInt .uint16
  let tcpPort ← readUInt .uint16
  let pingHash ← readArray 32
  let expiration ← readUInt .uint64
  let d ← get
  let ersErq ← if d.isFinished then pure 0 else readUInt .uint64
  let d ← get
  skipRest d.view.length
  -- the expiration is cast to 32 bits
  return ⟨ip, udpPort, tcpPort, pingHash, BitVec.ofNat _ expiration.toNat, ersErq⟩

/-- `discv4_pong::Parse`. -/
def parsePong (raw : Bytes) : Except DecodingError Discv4Pong := do
  rejectIf (raw.length ≤ kWireHeaderSize - kWirePacketTypeSize) .kUnexpectedString
  rejectIf (Bytes.at raw kWirePacketTypeOffset ≠ kPacketTypePong) .kUnexpectedString
  Stateful.outcome (readPong ⟨raw.drop kWireHeaderSize⟩)

/-! ## ENR response -/

structure Discv4EnrResponse where
  requestHash : Hash
  recordRlp : Bytes
deriving DecidableEq

/-- `discv4_enr_response::Parse`, behind its checks of the size and the type. -/
def readEnrResponse : DecodeM Discv4EnrResponse := do
  let _ ← openList
  let requestHash ← readArray 32
  let d ← get
  let recordHeader ← Stateful.lift d.peekHeader
  let recordTotal := recordHeader.headerSizeBytes + recordHeader.payloadSizeBytes
  rejectIf (d.view.length < recordTotal) .kInputTooShort
  skipItem
  return ⟨requestHash, d.view.take recordTotal⟩

/-- `discv4_enr_response::Parse`. -/
def parseEnrResponse (raw : Bytes) : Except DecodingError Discv4EnrResponse := do
  rejectIf (raw.length ≤ kWireHeaderSize) .kInputTooShort
  rejectIf (Bytes.at raw kWirePacketTypeOffset ≠ kPacketTypeEnrResponse) .kUnexpectedString
  Stateful.outcome (readEnrResponse ⟨raw.drop kWireHeaderSize⟩)

structure ForkId where
  hash : FixedBytes 4
  next : Uint64
deriving DecidableEq

/-- `"eth"`. -/
def kEthKey : Bytes := ascii ['e', 't', 'h']

/-- The value of the entry `eth`: a list whose first item is the list of the hash and the next fork. -/
def readForkId : DecodeM ForkId := do
  let _ ← openList
  let _ ← openList
  let hash ← readArray 4
  let next ← readUInt .uint64
  return ⟨hash, next⟩

/-- The loop over the entries of a record, with room for `fuel` entries. -/
def findForkId : Nat → DecodeM ForkId
  | 0 => throw .kUnexpectedString
  | fuel + 1 => do
    let d ← get
    if d.isFinished then throw .kUnexpectedString
    else do
      let key ← readBytes
      if key = kEthKey then readForkId
      else do
        skipItem
        findForkId fuel

/-- The list of a record, its signature and its sequence number, then the entries. -/
def readEthForkId : DecodeM ForkId := do
  let _ ← openList
  skipItem
  skipItem
  let d ← get
  findForkId d.view.length

/-- `discv4_enr_response::ParseEthForkId`. -/
def parseEthForkId (recordRlp : Bytes) : Except DecodingError ForkId := do
  rejectIf (recordRlp = []) .kInputTooShort
  Stateful.outcome (readEthForkId ⟨recordRlp⟩)

/-! ## The answer to a PING -/

def endpointFields (ip : IPv4) (port tcpPort : Uint16) : List Field :=
  [.string ip.bytes, .number .uint16 port, .number .uint16 tcpPort]

def pongFields (ip : IPv4) (port tcpPort : Uint16) (pingHash : Hash) (expiration : Uint32) : List Field :=
  [.list (encodeFields (endpointFields ip port tcpPort)), .string pingHash.bytes, .number .uint32 expiration]

def pongPayload (ip : IPv4) (port tcpPort : Uint16) (pingHash : Hash) (expiration : Uint32) : Bytes :=
  kPacketTypePong :: encodeList (encodeFields (pongFields ip port tcpPort pingHash expiration))

theorem length_endpointFields_le (ip : IPv4) (port tcpPort : Uint16) :
    (encodeFields (endpointFields ip port tcpPort)).length ≤ 95 := by
  apply (length_encodeFields_le_bound _ ?_).trans
  · simp [endpointFields, Field.bound, ip.size_eq]
  · simp [endpointFields, Field.Sized, ip.size_eq]
    decide

theorem length_pongFields_lt (ip : IPv4) (port tcpPort : Uint16) (pingHash : Hash) (expiration : Uint32) :
    (encodeFields (pongFields ip port tcpPort pingHash expiration)).length < kSizeModulus := by
  have hendpoint := length_endpointFields_le ip port tcpPort
  have hsize : 200 < kSizeModulus := by decide
  refine lt_of_le_of_lt (length_encodeFields_le_bound _ ?_) (lt_of_le_of_lt (b := 200) ?_ hsize)
  · simp [pongFields, Field.Sized, pingHash.size_eq]
    omega
  · simp [pongFields, Field.bound, pingHash.size_eq]
    omega

theorem encodePong_eq (ip : IPv4) (port tcpPort : Uint16) (pingHash : Hash) (expiration : Uint32) :
    encodePong ip port tcpPort pingHash expiration RlpEncoder.new =
      .ok (encodeList (encodeFields (pongFields ip port tcpPort pingHash expiration))) RlpEncoder.new := by
  apply encodeListOf_run _ (length_pongFields_lt ip port tcpPort pingHash expiration)
  have hendpoint := (Appends.fixed ip (by decide)).field (f := .string _)
    ((Appends.uint port).field (f := .number _ _) ((Appends.uint tcpPort).lastField (f := .number _ _)))
  have hlt := lt_of_le_of_lt (length_endpointFields_le ip port tcpPort) (by decide : 95 < kSizeModulus)
  apply (hendpoint.list hlt).field (f := .list _)
  apply (Appends.fixed pingHash (by decide)).field (f := .string _)
  exact (Appends.uint expiration).lastField (f := .number _ _)

end DevP2P.Discv4
