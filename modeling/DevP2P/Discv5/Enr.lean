import DevP2P.Lib.Secp256k1
import DevP2P.Rlp.Decoder
import DevP2P.Rlp.Encoder
import Mathlib.Data.Finmap

/-!
# Node records (`discv5/discv5_enr.cpp`)

A node record is the list `[signature, seq, k1, v1, ...]`. `decodeRlp` reads it into an `EnrRecord`,
with the signature and the signed content kept in `extraFields` under two keys of its own;
`verifySignature` takes them from there.

* `EnrPrimitives` : the third-party functions the parser calls;
* `applyEntry` : what one key/value pair does to the record; `entryLoop` : the loop over the pairs;
* `decodeRlp`, `verifySignature`, `decompressPubkey` : the parser.
-/

namespace DevP2P.Discv5
open DevP2P.Lib DevP2P.Rlp Stateful

abbrev kNodeIdBytes : Nat := 64
abbrev kCompressedKeyBytes : Nat := 33
abbrev kKeccak256Bytes : Nat := 32
abbrev kIPv4Bytes : Nat := 4
abbrev kIPv6Bytes : Nat := 16
abbrev kMaxPortBytes : Nat := 2
abbrev kForkHashBytes : Nat := 4
abbrev kEnrSigBytes : Nat := 64

def kEnrKeyId : Bytes := ascii ['i', 'd']
def kEnrKeySecp256k1 : Bytes := ascii ['s', 'e', 'c', 'p', '2', '5', '6', 'k', '1']
def kEnrKeyIp : Bytes := ascii ['i', 'p']
def kEnrKeyIp6 : Bytes := ascii ['i', 'p', '6']
def kEnrKeyTcp : Bytes := ascii ['t', 'c', 'p']
def kEnrKeyUdp : Bytes := ascii ['u', 'd', 'p']
def kEnrKeyTcp6 : Bytes := ascii ['t', 'c', 'p', '6']
def kEnrKeyUdp6 : Bytes := ascii ['u', 'd', 'p', '6']
def kEnrKeyEth : Bytes := ascii ['e', 't', 'h']

/-- The key `"__sig__"` of `extra_fields`, under which the signature is kept. -/
def kSigKey : Bytes := ascii ['_', '_', 's', 'i', 'g', '_', '_']

/-- The key `"__content__"` of `extra_fields`, under which the signed content is kept. -/
def kContentKey : Bytes := ascii ['_', '_', 'c', 'o', 'n', 't', 'e', 'n', 't', '_', '_']

inductive Discv5Error
  | kEnrMissingPrefix
  | kEnrBase64DecodeFailed
  | kEnrRlpDecodeFailed
  | kEnrTooShort
  | kEnrTooLarge
  | kEnrSignatureInvalid
  | kEnrSignatureWrongSize
  | kEnrMissingSecp256k1Key
  | kEnrInvalidSecp256k1Key
  | kEnrMissingAddress
  | kEnrInvalidIp
  | kEnrInvalidIp6
  | kEnrInvalidUdpPort
  | kEnrInvalidEthEntry
  | kEnrIdentityUnknown
  | kEnodeUriMalformed
  | kEnodeHexPubkeyInvalid
  | kContextCreationFailed
  | kCrawlerAlreadyRunning
  | kCrawlerNotRunning
  | kNetworkSendFailed
  | kNetworkReceiveFailed
deriving DecidableEq

abbrev EnrFault := Fault Discv5Error

/-- The 64 bytes of an uncompressed public key, without the leading `0x04`. -/
abbrev NodeId := FixedBytes kNodeIdBytes

structure ForkId where
  hash : FixedBytes kForkHashBytes
  next : UIntTy.Val .uint64
deriving DecidableEq

/-- The storage of a vector after the assignment of `val`: where it is large enough it is kept, with what stood
behind. -/
def assignInto (storage val : Bytes) : Bytes := val ++ storage.drop val.length

/-- A parsed node record; texts are kept as their bytes. -/
structure EnrRecord where
  seq : UIntTy.Val .uint64 := 0
  rawRlp : Bytes := []
  nodeId : NodeId := FixedBytes.zero _
  compressedPubkey : FixedBytes kCompressedKeyBytes := FixedBytes.zero _
  ip : Bytes := []
  ip6 : Bytes := []
  udpPort : UInt16 := 0
  tcpPort : UInt16 := 0
  udp6Port : UInt16 := 0
  tcp6Port : UInt16 := 0
  identityScheme : Bytes := []
  ethForkId : Option ForkId := none
  extraFields : Finmap (fun _ : Bytes => Bytes) := ∅
  /-- The storage of `extra_fields["__sig__"]`: its value, and what a longer value has left behind it. -/
  sigBuffer : Bytes := []
deriving DecidableEq

structure EnrPrimitives where
  secp : Secp256k1
  keccak256 : Bytes → FixedBytes kKeccak256Bytes
  /-- `boost::asio::ip::address_v4::to_string`. -/
  addressV4ToString : FixedBytes kIPv4Bytes → Bytes
  /-- `boost::asio::ip::address_v6::to_string`. -/
  addressV6ToString : FixedBytes kIPv6Bytes → Bytes

namespace EnrParser

variable (env : EnrPrimitives)

/-- `EnrParser::decode_ipv4`. -/
def decodeIpv4 (bytes : Bytes) : Except Discv5Error Bytes := do
  rejectIf (bytes.length ≠ kIPv4Bytes) .kEnrInvalidIp
  return env.addressV4ToString (FixedBytes.load _ bytes)

/-- `EnrParser::decode_ipv6`. -/
def decodeIpv6 (bytes : Bytes) : Except Discv5Error Bytes := do
  rejectIf (bytes.length ≠ kIPv6Bytes) .kEnrInvalidIp6
  return env.addressV6ToString (FixedBytes.load _ bytes)

/-- `EnrParser::decode_port`. -/
def decodePort (bytes : Bytes) : Except Discv5Error UInt16 := do
  rejectIf (bytes.isEmpty ∨ bytes.length > kMaxPortBytes) .kEnrInvalidUdpPort
  let port : UInt16 := bytes.foldl (fun port b => (port <<< 8) ||| b.toUInt16) 0
  rejectIf (port = 0) .kEnrInvalidUdpPort
  return port

/-- Reads a list header, as the parser does: a look at the type first. -/
def enterList {ε : Type} (e : ε) : EStateM ε RlpDecoder Nat := do
  let d ← get
  rejectIf (d.isList ≠ .ok true) e
  withError e readListHeaderBytes

/-- `EnrParser::decode_eth_entry`. -/
def decodeEthEntry (bytes : Bytes) : Except Discv5Error ForkId := do
  rejectIf (bytes.isEmpty) .kEnrInvalidEthEntry
  Stateful.outcome ((do
    let _ ← enterList .kEnrInvalidEthEntry
    let _ ← enterList .kEnrInvalidEthEntry
    let hashBytes ← withError .kEnrInvalidEthEntry readBytes
    rejectIf (hashBytes.length ≠ kForkHashBytes) .kEnrInvalidEthEntry
    let next ← withError .kEnrInvalidEthEntry (readUInt .uint64)
    return ⟨FixedBytes.load _ hashBytes, next⟩ : EStateM Discv5Error RlpDecoder ForkId) ⟨bytes⟩)

/-- The chain of branches on the key in `decode_rlp`. -/
def applyEntry (record : EnrRecord) (key val : Bytes) : EnrRecord :=
  if key = kEnrKeyId then { record with identityScheme := val }
  else if key = kEnrKeySecp256k1 then
    if val.length = kCompressedKeyBytes then { record with compressedPubkey := FixedBytes.load _ val }
    else record
  else if key = kEnrKeyIp then
    match decodeIpv4 env val with
    | .ok ip => { record with ip := ip }
    | .error _ => record
  else if key = kEnrKeyIp6 then
    match decodeIpv6 env val with
    | .ok ip6 => { record with ip6 := ip6 }
    | .error _ => record
  else if key = kEnrKeyTcp then
    match decodePort val with
    | .ok port => { record with tcpPort := port }
    | .error _ => record
  else if key = kEnrKeyUdp then
    match decodePort val with
    | .ok port => { record with udpPort := port }
    | .error _ => record
  else if key = kEnrKeyTcp6 then
    match decodePort val with
    | .ok port => { record with tcp6Port := port }
    | .error _ => record
  else if key = kEnrKeyUdp6 then
    match decodePort val with
    | .ok port => { record with udp6Port := port }
    | .error _ => record
  else if key = kEnrKeyEth then
    match decodeEthEntry val with
    | .ok forkId => { record with ethForkId := some forkId }
    | .error _ => record
  else
    { record with
      extraFields := record.extraFields.insert key val
      sigBuffer := if key = kSigKey then assignInto record.sigBuffer val else record.sigBuffer }

/-- The key/value loop of `decode_rlp`, with room for `fuel` pairs; it ends at the end of the input
or at the first pair it cannot read. -/
def entryLoop : Nat → EnrRecord → RlpDecoder → EnrRecord
  | 0, record, _ => record
  | fuel + 1, record, d =>
    if d.isFinished then record
    else match readBytes d with
      | .error _ _ => record
      | .ok key d => match readBytes d with
        | .error _ _ => record
        | .ok val d => entryLoop fuel (applyEntry env record key val) d

/-- The signed content: the elements behind the signature, wrapped as a list again. -/
def wrapContent (elements : ByteView) : EncodeM Bytes := do
  beginList
  addRaw elements
  endList
  moveBytes

/-- `EnrParser::decode_rlp`, on the decoder of `raw`. -/
def decodeRlpSteps (raw : Bytes) : EStateM EnrFault RlpDecoder EnrRecord := do
  let listPayloadLen ← enterList (.error .kEnrRlpDecodeFailed)
  let afterListHeader ← get
  let sigBytes ← withError (.error .kEnrRlpDecodeFailed) readBytes
  rejectIf (sigBytes.length ≠ kEnrSigBytes) (.error .kEnrSignatureWrongSize)
  let afterSig ← get
  let sigConsumed := afterListHeader.view.length - afterSig.view.length
  -- `list_payload_len - sig_consumed`, in `size_t`
  let contentElementsLen := (listPayloadLen + (kSizeModulus - sigConsumed)) % kSizeModulus
  rejectIf (contentElementsLen > afterSig.view.length) .outOfBounds
  let content ← withError (.error .kEnrRlpDecodeFailed)
    (Stateful.lift (Stateful.outcome (wrapContent (afterSig.view.take contentElementsLen) RlpEncoder.new)))
  let seq ← withError (.error .kEnrRlpDecodeFailed) (readUInt .uint64)
  let d ← get
  let record := entryLoop env d.view.length
    { rawRlp := raw
      seq := seq
      extraFields := ((∅ : Finmap _).insert kSigKey sigBytes).insert kContentKey content
      sigBuffer := sigBytes } d
  rejectIf (record.compressedPubkey = FixedBytes.zero _) (.error .kEnrMissingSecp256k1Key)
  return record

/-- `EnrParser::decode_rlp`. -/
def decodeRlp (raw : Bytes) : Except EnrFault EnrRecord :=
  Stateful.outcome (decodeRlpSteps env raw ⟨raw⟩)

/-- `EnrParser::decompress_pubkey`. -/
def decompressPubkey (compressed : FixedBytes kCompressedKeyBytes) : Except Discv5Error NodeId := do
  rejectIf (env.secp.contextCreate = false) .kContextCreationFailed
  let pubkey ← Outcome.unwrap (env.secp.pubkeyParse compressed.bytes) .kEnrInvalidSecp256k1Key
  return FixedBytes.load _ ((env.secp.serializeUncompressed pubkey).bytes.drop 1)

/-- `secp256k1_ecdsa_signature_parse_compact` on `sig_bytes.data()`: 64 bytes of the storage are read, whatever the size
of the vector is. -/
def parseCompact (storage : Bytes) : Except EnrFault env.secp.Signature := do
  rejectIf (storage.length < kEnrSigBytes) .outOfBounds
  Outcome.unwrap (env.secp.signatureParseCompact (FixedBytes.load _ storage)) (.error .kEnrSignatureInvalid)

/-- `EnrParser::verify_signature`: the record it leaves behind. -/
def verifySignature (record : EnrRecord) : Except EnrFault EnrRecord := do
  let _ ← Outcome.unwrap (record.extraFields.lookup kSigKey) (.error .kEnrRlpDecodeFailed)
  let contentBytes ← Outcome.unwrap (record.extraFields.lookup kContentKey) (.error .kEnrRlpDecodeFailed)
  let hash := env.keccak256 contentBytes
  rejectIf (env.secp.contextCreate = false) (.error .kContextCreationFailed)
  let pubkey ← Outcome.unwrap (env.secp.pubkeyParse record.compressedPubkey.bytes)
    (.error .kEnrInvalidSecp256k1Key)
  let sig ← parseCompact env record.sigBuffer
  rejectIf (env.secp.ecdsaVerify sig hash pubkey = false) (.error .kEnrSignatureInvalid)
  let nodeId ← (decompressPubkey env record.compressedPubkey).mapError .error
  return { record with
    nodeId := nodeId
    extraFields := (record.extraFields.erase kSigKey).erase kContentKey
    sigBuffer := [] }

end EnrParser

end DevP2P.Discv5
