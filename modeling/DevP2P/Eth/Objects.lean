import DevP2P.Rlp.Fields

/-!
# Objects of the eth protocol (`eth/objects.cpp`, `eth/objects.hpp`)

Log entries, access lists, transactions, receipts and block headers, with their encoders and decoders.

* `add`, `listOf`, `finalizeEncoding` : the calls of the encoder with the errors the source reports for them;
* `encodeTransaction`, `encodeReceipt`, `encodeBlockHeader` : the encoders;
* `readTransaction`, `readReceipt`, `readBlockHeader` : the reads of the decoders, which
  leave the decoder behind the last field; `decodeTransaction`, `decodeReceipt`, `decodeBlockHeader` : the decoders.
-/

namespace DevP2P.Eth
open DevP2P.Lib DevP2P.Rlp Stateful

abbrev Hash256 := FixedBytes 32
abbrev Address := FixedBytes 20
abbrev Bloom := FixedBytes 256
abbrev ByteBuffer := Bytes
abbrev Uint8 := UIntTy.Val .uint8
abbrev Uint64 := UIntTy.Val .uint64
abbrev Uint256 := UIntTy.Val .uint256

def kRlpListPrefixMin : Nat := 0xC0
def kTypedTxPrefixSize : Nat := 1
def kDefaultChainId : Uint64 := 1

structure LogEntry where
  address : Address
  topics : List Hash256
  data : ByteBuffer
deriving DecidableEq

inductive TransactionType
  | kLegacy
  | kAccessList
  | kDynamicFee
deriving DecidableEq

/-- `static_cast<uint8_t>(type)`. -/
def TransactionType.toByte : TransactionType → UInt8
  | .kLegacy => 0x00
  | .kAccessList => 0x01
  | .kDynamicFee => 0x02

structure AccessListEntry where
  address : Address
  storageKeys : List Hash256
deriving DecidableEq

structure Transaction where
  type : TransactionType
  nonce : Uint64
  gasLimit : Uint64
  /-- `to`; empty for a contract creation -/
  recipient : Option Address
  value : Uint256
  data : ByteBuffer
  gasPrice : Option Uint256
  maxPriorityFeePerGas : Option Uint256
  maxFeePerGas : Option Uint256
  accessList : List AccessListEntry
  chainId : Option Uint64
  v : Uint256
  r : Uint256
  s : Uint256
deriving DecidableEq

structure Receipt where
  stateRoot : Option Hash256
  status : Option Bool
  cumulativeGasUsed : Uint256
  bloom : Bloom
  logs : List LogEntry
deriving DecidableEq

structure BlockHeader where
  parentHash : Hash256
  ommersHash : Hash256
  beneficiary : Address
  stateRoot : Hash256
  transactionsRoot : Hash256
  receiptsRoot : Hash256
  logsBloom : Bloom
  difficulty : Uint256
  number : Uint64
  gasLimit : Uint64
  gasUsed : Uint64
  timestamp : Uint64
  extraData : ByteBuffer
  mixHash : Hash256
  nonce : FixedBytes 8
  baseFeePerGas : Option Uint256
deriving DecidableEq

/-! ## Calls of the encoder -/

abbrev EncodeResult := Except EncodingError ByteBuffer

/-- `if (!encoder.add(..)) return kPayloadTooLarge`. -/
def add (call : EncodeM Unit) : EncodeM Unit := withError .kPayloadTooLarge call

/-- `BeginList`, the calls for the payload, `EndList`, with `kUnclosedList` for a failure of either end. -/
def listOf (body : EncodeM Unit) : EncodeM Unit := do
  withError .kUnclosedList beginList
  body
  withError .kUnclosedList endList

/-- The calls on a new encoder, then `finalize_encoding`. -/
def finalizeEncoding (body : EncodeM Unit) : EncodeResult :=
  Stateful.outcome ((do body; getBytes) RlpEncoder.new)

/-- The loop that writes a list of hashes: topics, storage keys, and `encode_hash_list`. -/
def encodeHashList (hashes : List Hash256) : EncodeM Unit :=
  listOf (hashes.forM fun hash => add (addBytes hash.bytes))

/-- The calls for one log entry, in `encode_log_entry` and in `encode_receipt`. -/
def addLogEntry (entry : LogEntry) : EncodeM Unit := listOf do
  add (addBytes entry.address.bytes)
  encodeHashList entry.topics
  add (addBytes entry.data)

def encodeLogEntry (entry : LogEntry) : EncodeResult := finalizeEncoding (addLogEntry entry)

/-- `encode_access_list_entry_to_encoder`. -/
def addAccessListEntry (entry : AccessListEntry) : EncodeM Unit := listOf do
  add (addBytes entry.address.bytes)
  encodeHashList entry.storageKeys

def encodeAccessListEntry (entry : AccessListEntry) : EncodeResult := finalizeEncoding (addAccessListEntry entry)

/-- `encode_access_list`. -/
def encodeAccessList (accessList : List AccessListEntry) : EncodeM Unit := listOf (accessList.forM addAccessListEntry)

/-- The recipient, or an empty string for a contract creation. -/
def addRecipient (recipient : Option Address) : EncodeM Unit :=
  match recipient with
  | some address => add (addBytes address.bytes)
  | none => add (addBytes [])

def encodeTransaction (tx : Transaction) : EncodeResult :=
  match tx.type with
  | .kLegacy =>
    finalizeEncoding (listOf do
      add (addUInt tx.nonce)
      add (addUInt (tx.gasPrice.getD 0))
      add (addUInt tx.gasLimit)
      addRecipient tx.recipient
      add (addUInt tx.value)
      add (addBytes tx.data)
      add (addUInt tx.v)
      add (addUInt tx.r)
      add (addUInt tx.s))
  | .kAccessList => do
    let rlpBytes ← finalizeEncoding (listOf do
      add (addUInt (tx.chainId.getD kDefaultChainId))
      add (addUInt tx.nonce)
      add (addUInt (tx.gasPrice.getD 0))
      add (addUInt tx.gasLimit)
      addRecipient tx.recipient
      add (addUInt tx.value)
      add (addBytes tx.data)
      encodeAccessList tx.accessList
      add (addUInt tx.v)
      add (addUInt tx.r)
      add (addUInt tx.s))
    return TransactionType.kAccessList.toByte :: rlpBytes
  | .kDynamicFee => do
    let rlpBytes ← finalizeEncoding (listOf do
      add (addUInt (tx.chainId.getD kDefaultChainId))
      add (addUInt tx.nonce)
      add (addUInt (tx.maxPriorityFeePerGas.getD 0))
      add (addUInt (tx.maxFeePerGas.getD 0))
      add (addUInt tx.gasLimit)
      addRecipient tx.recipient
      add (addUInt tx.value)
      add (addBytes tx.data)
      encodeAccessList tx.accessList
      add (addUInt tx.v)
      add (addUInt tx.r)
      add (addUInt tx.s))
    return TransactionType.kDynamicFee.toByte :: rlpBytes

def addStatusOrStateRoot (receipt : Receipt) : EncodeM Unit :=
  match receipt.stateRoot, receipt.status with
  | some stateRoot, _ => add (addBytes stateRoot.bytes)
  | none, some status => add (addUInt (T := .uint8) (if status then 1 else 0))
  | none, none => throw .kEmptyInput

def encodeReceipt (receipt : Receipt) : EncodeResult := finalizeEncoding (listOf do
  addStatusOrStateRoot receipt
  add (addUInt receipt.cumulativeGasUsed)
  add (addBytes receipt.bloom.bytes)
  listOf (receipt.logs.forM addLogEntry))

def addBaseFee (baseFeePerGas : Option Uint256) : EncodeM Unit :=
  match baseFeePerGas with
  | some baseFee => add (addUInt baseFee)
  | none => pure ()

def encodeBlockHeader (header : BlockHeader) : EncodeResult := finalizeEncoding (listOf do
  add (addBytes header.parentHash.bytes)
  add (addBytes header.ommersHash.bytes)
  add (addBytes header.beneficiary.bytes)
  add (addBytes header.stateRoot.bytes)
  add (addBytes header.transactionsRoot.bytes)
  add (addBytes header.receiptsRoot.bytes)
  add (addBytes header.logsBloom.bytes)
  add (addUInt header.difficulty)
  add (addUInt header.number)
  add (addUInt header.gasLimit)
  add (addUInt header.gasUsed)
  add (addUInt header.timestamp)
  add (addBytes header.extraData)
  add (addBytes header.mixHash.bytes)
  add (addBytes header.nonce.bytes)
  addBaseFee header.baseFeePerGas)

/-! ## Reads -/

abbrev DecodeResult (α : Type) := Except DecodingError α

/-- `if (!decoder.read(..)) return kUnexpectedLength`, for an array of `n` bytes. -/
def readFixed (n : Nat) : DecodeM (FixedBytes n) := withError .kUnexpectedLength (readArray n)

/-- `if (!decoder.read(..)) return kUnexpectedString`, for an integer. -/
def readNumber (T : UIntTy) : DecodeM T.Val := withError .kUnexpectedString (readUInt T)

/-- `if (!decoder.read(..)) return kUnexpectedString`, for bytes. -/
def readData : DecodeM ByteBuffer := withError .kUnexpectedString readBytes

/-- The loop that reads a list of hashes: topics, storage keys, and `decode_hash_list`. -/
def decodeHashList : DecodeM (List Hash256) := readListOf (readFixed 32)

def decodeStatusOrStateRoot : DecodeM (Option Hash256 × Option Bool) := do
  let d ← get
  let header ← Stateful.lift d.peekHeader
  rejectIf header.list .kUnexpectedList
  if header.payloadSizeBytes = 32 then
    let root ← readArray 32
    return (some root, none)
  else
    let statusBytes ← readBytes
    match statusBytes with
    | [] => return (none, some false)
    | [x] => return (none, some (x != 0))
    | _ => throw .kUnexpectedLength

def decodeLogEntryFromDecoder : DecodeM LogEntry := readList fun _ => do
  let address ← readFixed 20
  let topics ← decodeHashList
  let data ← readData
  return ⟨address, topics, data⟩

def decodeLogEntry (rlpData : ByteView) : DecodeResult LogEntry :=
  Stateful.outcome (decodeLogEntryFromDecoder ⟨rlpData⟩)

def decodeAccessListEntryFromDecoder : DecodeM AccessListEntry := readList fun _ => do
  let address ← readFixed 20
  let storageKeys ← decodeHashList
  return ⟨address, storageKeys⟩

def decodeAccessListEntry (rlpData : ByteView) : DecodeResult AccessListEntry :=
  Stateful.outcome (decodeAccessListEntryFromDecoder ⟨rlpData⟩)

def decodeAccessList : DecodeM (List AccessListEntry) := readListOf decodeAccessListEntryFromDecoder

/-- The recipient; empty bytes are a contract creation. -/
def readRecipient : DecodeM (Option Address) := do
  let d ← get
  let toHeader ← Stateful.lift d.peekHeader
  if toHeader.payloadSizeBytes = 0 then
    let _ ← readData
    return none
  else
    let address ← readFixed 20
    return some address

structure Fees where
  gasPrice : Option Uint256
  maxPriorityFeePerGas : Option Uint256
  maxFeePerGas : Option Uint256
deriving DecidableEq

def readFees (type : TransactionType) : DecodeM Fees := do
  if type = .kAccessList then
    let gasPrice ← readNumber .uint256
    return ⟨some gasPrice, none, none⟩
  else
    let maxPriorityFee ← readNumber .uint256
    let maxFee ← readNumber .uint256
    return ⟨none, some maxPriorityFee, some maxFee⟩

def readTypedFields (type : TransactionType) : DecodeM Transaction := do
  let chainId ← readNumber .uint64
  let nonce ← readNumber .uint64
  let fees ← readFees type
  let gasLimit ← readNumber .uint64
  let recipient ← readRecipient
  let value ← readNumber .uint256
  let data ← readData
  let accessList ← decodeAccessList
  let v ← readNumber .uint256
  let r ← readNumber .uint256
  let s ← readNumber .uint256
  return { type, nonce, gasLimit, recipient, value, data, gasPrice := fees.gasPrice,
           maxPriorityFeePerGas := fees.maxPriorityFeePerGas, maxFeePerGas := fees.maxFeePerGas,
           accessList, chainId := some chainId, v, r, s }

def readLegacyFields : DecodeM Transaction := do
  let nonce ← readNumber .uint64
  let gasPrice ← readNumber .uint256
  let gasLimit ← readNumber .uint64
  let recipient ← readRecipient
  let value ← readNumber .uint256
  let data ← readData
  let v ← readNumber .uint256
  let r ← readNumber .uint256
  let s ← readNumber .uint256
  return { type := .kLegacy, nonce, gasLimit, recipient, value, data, gasPrice := some gasPrice,
           maxPriorityFeePerGas := none, maxFeePerGas := none, accessList := [], chainId := none, v, r, s }

/-- A list header, then the fields of an object; the declared length of the list is not used. -/
def openList {α : Type} (fields : DecodeM α) : DecodeM α := do
  let _ ← readListHeaderBytes
  fields

def typeOfByte (typeByte : UInt8) : DecodeResult TransactionType :=
  if typeByte = TransactionType.kAccessList.toByte then .ok .kAccessList
  else if typeByte = TransactionType.kDynamicFee.toByte then .ok .kDynamicFee
  else .error .kUnexpectedString

/-- The reads of `decode_transaction`; a type byte is passed over. -/
def readTransaction : DecodeM Transaction := do
  let d ← get
  rejectIf (d.view = []) .kInputTooShort
  if (Bytes.at d.view 0).toNat < kRlpListPrefixMin then
    let type ← Stateful.lift (typeOfByte (Bytes.at d.view 0))
    dropFront kTypedTxPrefixSize
    openList (readTypedFields type)
  else openList readLegacyFields

def decodeTransaction (rawData : ByteView) : DecodeResult Transaction := Stateful.outcome (readTransaction ⟨rawData⟩)

def readReceiptFields : DecodeM Receipt := do
  let (stateRoot, status) ← decodeStatusOrStateRoot
  let cumulativeGasUsed ← readNumber .uint256
  let bloom ← readFixed 256
  let logs ← readListOf decodeLogEntryFromDecoder
  return ⟨stateRoot, status, cumulativeGasUsed, bloom, logs⟩

def readReceipt : DecodeM Receipt := openList readReceiptFields

def decodeReceipt (rlpData : ByteView) : DecodeResult Receipt := Stateful.outcome (readReceipt ⟨rlpData⟩)

def readHeaderFields : DecodeM BlockHeader := do
  let parentHash ← readFixed 32
  let ommersHash ← readFixed 32
  let beneficiary ← readFixed 20
  let stateRoot ← readFixed 32
  let transactionsRoot ← readFixed 32
  let receiptsRoot ← readFixed 32
  let logsBloom ← readFixed 256
  let difficulty ← readNumber .uint256
  let number ← readNumber .uint64
  let gasLimit ← readNumber .uint64
  let gasUsed ← readNumber .uint64
  let timestamp ← readNumber .uint64
  let extraData ← readData
  let mixHash ← readFixed 32
  let nonce ← readFixed 8
  return { parentHash, ommersHash, beneficiary, stateRoot, transactionsRoot, receiptsRoot, logsBloom, difficulty,
           number, gasLimit, gasUsed, timestamp, extraData, mixHash, nonce, baseFeePerGas := none }

/-- The base fee, if the input goes on behind the other fields. -/
def readBaseFee (header : BlockHeader) : DecodeM BlockHeader := do
  let d ← get
  if d.isFinished then return header
  else
    let baseFee ← readNumber .uint256
    return { header with baseFeePerGas := some baseFee }

def readBlockHeader : DecodeM BlockHeader := openList do
  let header ← readHeaderFields
  readBaseFee header

def decodeBlockHeader (rlpData : ByteView) : DecodeResult BlockHeader := Stateful.outcome (readBlockHeader ⟨rlpData⟩)

end DevP2P.Eth
