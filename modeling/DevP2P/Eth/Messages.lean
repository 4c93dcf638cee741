import DevP2P.Eth.Objects

/-!
# Messages of the eth protocol (`eth/messages.cpp`, `eth/eth_types.hpp`)

* `encodeEnvelope`, `decodeEnvelope` : a payload with or without a request id, and `consumeEth66RequestId`, which probes
  for one;
* `encodeBlockHeadersPayload`, `encodeReceiptsPayload`, `encodePooledTransactionsPayload`, `encodeTransactionList`,
  `encodeBlockBody` and their decoders : the payloads;
* one encoder and one decoder for each message.
-/

namespace DevP2P.Eth
open DevP2P.Lib DevP2P.Rlp

def kEthProtocolVersion66 : Uint8 := 66
def kEthProtocolVersion67 : Uint8 := 67
def kEthProtocolVersion68 : Uint8 := 68
def kEthProtocolVersion69 : Uint8 := 69

structure ForkId where
  forkHash : FixedBytes 4
  nextFork : Uint64
deriving DecidableEq

structure StatusMessage68 where
  protocolVersion : Uint8
  networkId : Uint64
  td : Uint256
  blockhash : Hash256
  genesisHash : Hash256
  forkId : ForkId
deriving DecidableEq

structure StatusMessage69 where
  protocolVersion : Uint8
  networkId : Uint64
  genesisHash : Hash256
  forkId : ForkId
  earliestBlock : Uint64
  latestBlock : Uint64
  latestBlockHash : Hash256
deriving DecidableEq

/-- `std::variant<StatusMessage68, StatusMessage69>`. -/
inductive StatusMessage
  | eth68 (msg : StatusMessage68)
  | eth69 (msg : StatusMessage69)
deriving DecidableEq

structure NewBlockHashEntry where
  hash : Hash256
  number : Uint64
deriving DecidableEq

structure NewBlockHashesMessage where
  entries : List NewBlockHashEntry
deriving DecidableEq

structure NewPooledTransactionHashesMessage where
  hashes : List Hash256
deriving DecidableEq

structure GetBlockHeadersMessage where
  requestId : Option Uint64
  startHash : Option Hash256
  startNumber : Option Uint64
  maxHeaders : Uint64
  skip : Uint64
  reverse : Bool
deriving DecidableEq

structure BlockHeadersMessage where
  requestId : Option Uint64
  headers : List BlockHeader
deriving DecidableEq

structure GetReceiptsMessage where
  requestId : Option Uint64
  blockHashes : List Hash256
deriving DecidableEq

structure ReceiptsMessage where
  requestId : Option Uint64
  receipts : List (List Receipt)
deriving DecidableEq

structure GetPooledTransactionsMessage where
  requestId : Option Uint64
  transactionHashes : List Hash256
deriving DecidableEq

structure PooledTransactionsMessage where
  requestId : Option Uint64
  encodedTransactions : List ByteBuffer
deriving DecidableEq

structure GetBlockBodiesMessage where
  requestId : Option Uint64
  blockHashes : List Hash256
deriving DecidableEq

structure BlockBody where
  transactions : List Transaction
  ommers : List BlockHeader
deriving DecidableEq

structure BlockBodiesMessage where
  requestId : Option Uint64
  bodies : List BlockBody
deriving DecidableEq

structure NewBlockMessage where
  header : BlockHeader
  transactions : List Transaction
  ommers : List BlockHeader
  totalDifficulty : Uint256
deriving DecidableEq

/-! ## Payloads -/

/-- An object that was encoded on its own, as raw bytes. -/
def addEncoded (encoded : EncodeResult) : EncodeM Unit := do
  let bytes ← Stateful.lift encoded
  add (addRaw bytes)

def readDecoded {α : Type} (decode : ByteView → DecodeResult α) : DecodeM α := do
  let item ← consumeNextItem
  Stateful.lift (decode item)

def encodeBlockHeadersPayload (headers : List BlockHeader) : EncodeM Unit :=
  listOf (headers.forM fun header => addEncoded (encodeBlockHeader header))

def decodeBlockHeadersPayload : DecodeM (List BlockHeader) := readListOf (readDecoded decodeBlockHeader)

def encodeReceiptsPayload (receipts : List (List Receipt)) : EncodeM Unit :=
  listOf (receipts.forM fun blockReceipts =>
    listOf (blockReceipts.forM fun receipt => addEncoded (encodeReceipt receipt)))

def decodeReceiptsPayload : DecodeM (List (List Receipt)) := readListOf (readListOf (readDecoded decodeReceipt))

def encodePooledTransactionsPayload (encodedTransactions : List ByteBuffer) : EncodeM Unit :=
  listOf (encodedTransactions.forM fun encodedTx => add (addRaw encodedTx))

def decodePooledTransactionsPayload : DecodeM (List ByteBuffer) := readListOf consumeNextItem

/-- A legacy transaction is embedded as it is, a typed one as a byte string. -/
def addTransaction (tx : Transaction) : EncodeM Unit := do
  let encoded ← Stateful.lift (encodeTransaction tx)
  if tx.type = .kLegacy then add (addRaw encoded)
  else add (addBytes encoded)

def encodeTransactionList (txs : List Transaction) : EncodeM Unit := listOf (txs.forM addTransaction)

/-- One transaction of a list: a byte string is decoded from its content, whatever its first byte, anything else as an
item. -/
def readListedTransaction : DecodeM Transaction := do
  let d ← get
  let nextHeader ← Stateful.lift d.peekHeader
  if ¬ nextHeader.list ∧ nextHeader.payloadSizeBytes > 0 then
    let rawBytes ← readData
    Stateful.lift (decodeTransaction rawBytes)
  else readDecoded decodeTransaction

def decodeTransactionList : DecodeM (List Transaction) := readListOf readListedTransaction

def encodeBlockBody (body : BlockBody) : EncodeM Unit := listOf do
  encodeTransactionList body.transactions
  encodeBlockHeadersPayload body.ommers

def decodeBlockBody : DecodeM BlockBody := readList fun _ => do
  let transactions ← decodeTransactionList
  let ommers ← decodeBlockHeadersPayload
  return ⟨transactions, ommers⟩

/-! ## Envelopes -/

/-- The payload, in a list behind the request id if there is one. -/
def encodeEnvelope (requestId : Option Uint64) (payload : EncodeM Unit) : EncodeResult :=
  finalizeEncoding (match requestId with
    | some id => listOf do
        add (addUInt id)
        payload
    | none => payload)

/-- `consume_eth66_request_id`: an integer in front of a list is a request id. The probe is a second decoder on the same
bytes. -/
def consumeEth66RequestId : DecodeM (Option Uint64) := fun d =>
  match readUInt .uint64 ⟨d.remaining⟩ with
  | .error _ _ => .ok none d
  | .ok _ probe =>
    match probe.peekHeader with
    | .error _ => .ok none d
    | .ok nextHeader =>
      if nextHeader.list then
        match readUInt .uint64 d with
        | .error _ d' => .ok none d'
        | .ok id d' => .ok (some id) d'
      else .ok none d

/-- `if (!decoder.IsFinished()) return kInputTooLong`. -/
def expectFinished : DecodeM Unit := do
  let d ← get
  rejectIf (¬ d.isFinished) .kInputTooLong

/-- A list header, a request id if there is one, the payload, and nothing behind it. -/
def decodeEnvelope {α : Type} (payload : DecodeM α) (rlpData : ByteView) : DecodeResult (Option Uint64 × α) :=
  Stateful.outcome ((do
    let _ ← readListHeaderBytes
    let requestId ← consumeEth66RequestId
    let content ← payload
    expectFinished
    return (requestId, content) : DecodeM (Option Uint64 × α)) ⟨rlpData⟩)

/-! ## Status -/

def addForkId (forkId : ForkId) : EncodeM Unit := listOf do
  add (addBytes forkId.forkHash.bytes)
  add (addUInt forkId.nextFork)

def encodeStatus : StatusMessage → EncodeResult
  | .eth68 m => finalizeEncoding (listOf do
      add (addUInt m.protocolVersion)
      add (addUInt m.networkId)
      add (addUInt m.td)
      add (addBytes m.blockhash.bytes)
      add (addBytes m.genesisHash.bytes)
      addForkId m.forkId)
  | .eth69 m => finalizeEncoding (listOf do
      add (addUInt m.protocolVersion)
      add (addUInt m.networkId)
      add (addBytes m.genesisHash.bytes)
      addForkId m.forkId
      add (addUInt m.earliestBlock)
      add (addUInt m.latestBlock)
      add (addBytes m.latestBlockHash.bytes))

/-- The fork id; the declared length of its list is not used. -/
def readForkId : DecodeM ForkId := openList do
  let forkHash ← readFixed 4
  let nextFork ← readNumber .uint64
  return ⟨forkHash, nextFork⟩

def readStatus69 (protocolVersion : Uint8) (networkId : Uint64) : DecodeM StatusMessage69 := do
  let genesisHash ← readFixed 32
  let forkId ← readForkId
  let earliestBlock ← readNumber .uint64
  let latestBlock ← readNumber .uint64
  let latestBlockHash ← readFixed 32
  return { protocolVersion, networkId, genesisHash, forkId, earliestBlock, latestBlock, latestBlockHash }

def readStatus68 (protocolVersion : Uint8) (networkId : Uint64) : DecodeM StatusMessage68 := do
  let td ← readNumber .uint256
  let blockhash ← readFixed 32
  let genesisHash ← readFixed 32
  let forkId ← readForkId
  return { protocolVersion, networkId, td, blockhash, genesisHash, forkId }

/-- The reads of `decode_status`. -/
def readStatus : DecodeM StatusMessage := openList do
  let protocolVersion ← readNumber .uint8
  let networkId ← readNumber .uint64
  if protocolVersion = kEthProtocolVersion69 then
    let msg69 ← readStatus69 protocolVersion networkId
    return .eth69 msg69
  else if protocolVersion = kEthProtocolVersion68 ∨ protocolVersion = kEthProtocolVersion67 ∨
      protocolVersion = kEthProtocolVersion66 then
    let msg68 ← readStatus68 protocolVersion networkId
    return .eth68 msg68
  else throw .kUnexpectedString

def decodeStatus (rlpData : ByteView) : DecodeResult StatusMessage := Stateful.outcome (readStatus ⟨rlpData⟩)

/-! ## Announcements -/

def encodeNewBlockHashes (msg : NewBlockHashesMessage) : EncodeResult :=
  finalizeEncoding (listOf (msg.entries.forM fun entry => listOf do
    add (addBytes entry.hash.bytes)
    add (addUInt entry.number)))

/-- One entry; the declared length of its list is not used. -/
def readNewBlockHashEntry : DecodeM NewBlockHashEntry := openList do
  let hash ← readFixed 32
  let number ← readNumber .uint64
  return ⟨hash, number⟩

/-- `while (!decoder.IsFinished())`: the loop goes on to the end of the input. -/
def readToEnd {α : Type} (x : DecodeM α) : DecodeM (List α) := readItems x 0

def decodeNewBlockHashes (rlpData : ByteView) : DecodeResult NewBlockHashesMessage :=
  Stateful.outcome ((do
    let _ ← readListHeaderBytes
    let entries ← readToEnd readNewBlockHashEntry
    return ⟨entries⟩ : DecodeM NewBlockHashesMessage) ⟨rlpData⟩)

def encodeNewPooledTxHashes (msg : NewPooledTransactionHashesMessage) : EncodeResult :=
  finalizeEncoding (encodeHashList msg.hashes)

def decodeNewPooledTxHashes (rlpData : ByteView) : DecodeResult NewPooledTransactionHashesMessage :=
  Stateful.outcome ((do
    let _ ← readListHeaderBytes
    let hashes ← readToEnd (readFixed 32)
    return ⟨hashes⟩ : DecodeM NewPooledTransactionHashesMessage) ⟨rlpData⟩)

def encodeNewBlock (msg : NewBlockMessage) : EncodeResult := finalizeEncoding (listOf do
  listOf do
    addEncoded (encodeBlockHeader msg.header)
    encodeTransactionList msg.transactions
    encodeBlockHeadersPayload msg.ommers
  add (addUInt msg.totalDifficulty))

def decodeNewBlock (rlpData : ByteView) : DecodeResult NewBlockMessage :=
  Stateful.outcome ((do
    let _ ← readListHeaderBytes
    let (header, transactions, ommers) ← readList fun _ => do
      let header ← readDecoded decodeBlockHeader
      let transactions ← decodeTransactionList
      let ommers ← decodeBlockHeadersPayload
      return (header, transactions, ommers)
    let totalDifficulty ← readNumber .uint256
    return ⟨header, transactions, ommers, totalDifficulty⟩ : DecodeM NewBlockMessage) ⟨rlpData⟩)

/-! ## Requests and responses -/

/-- The start of a range of headers: a hash, a number, or nothing at all. -/
def addOrigin (msg : GetBlockHeadersMessage) : EncodeM Unit :=
  match msg.startHash, msg.startNumber with
  | some startHash, _ => add (addBytes startHash.bytes)
  | none, some startNumber => add (addUInt startNumber)
  | none, none => pure ()

def encodeGetBlockHeadersPayload (msg : GetBlockHeadersMessage) : EncodeM Unit := do
  rejectIf (msg.startHash.isSome ∧ msg.startNumber.isSome) .kEmptyInput
  listOf do
    addOrigin msg
    add (addUInt msg.maxHeaders)
    add (addUInt msg.skip)
    add (addBool msg.reverse)

def encodeGetBlockHeaders (msg : GetBlockHeadersMessage) : EncodeResult :=
  encodeEnvelope msg.requestId (encodeGetBlockHeadersPayload msg)

/-- The start of a range: a string of 32 bytes is a hash, everything else a number. -/
def readOrigin : DecodeM (Option Hash256 × Option Uint64) := do
  let d ← get
  let header ← Stateful.lift d.peekHeader
  rejectIf header.list .kUnexpectedList
  if header.payloadSizeBytes = 32 then
    let hash ← readFixed 32
    return (some hash, none)
  else
    let number ← readNumber .uint64
    return (none, some number)

def decodeGetBlockHeadersPayload (requestId : Option Uint64) : DecodeM GetBlockHeadersMessage := do
  let (startHash, startNumber) ← readOrigin
  let maxHeaders ← readNumber .uint64
  let skip ← readNumber .uint64
  let reverse ← Stateful.withError .kUnexpectedString readBool
  return { requestId, startHash, startNumber, maxHeaders, skip, reverse }

def decodeGetBlockHeaders (rlpData : ByteView) : DecodeResult GetBlockHeadersMessage :=
  Stateful.outcome ((do
    let _ ← readListHeaderBytes
    let requestId ← consumeEth66RequestId
    if requestId.isSome then
      let _ ← readListHeaderBytes
    let msg ← decodeGetBlockHeadersPayload requestId
    expectFinished
    return msg : DecodeM GetBlockHeadersMessage) ⟨rlpData⟩)

def encodeBlockHeaders (msg : BlockHeadersMessage) : EncodeResult :=
  encodeEnvelope msg.requestId (encodeBlockHeadersPayload msg.headers)

def decodeBlockHeaders (rlpData : ByteView) : DecodeResult BlockHeadersMessage := do
  let (requestId, headers) ← decodeEnvelope decodeBlockHeadersPayload rlpData
  return ⟨requestId, headers⟩

def encodeGetReceipts (msg : GetReceiptsMessage) : EncodeResult :=
  encodeEnvelope msg.requestId (encodeHashList msg.blockHashes)

def decodeGetReceipts (rlpData : ByteView) : DecodeResult GetReceiptsMessage := do
  let (requestId, blockHashes) ← decodeEnvelope decodeHashList rlpData
  return ⟨requestId, blockHashes⟩

def encodeReceipts (msg : ReceiptsMessage) : EncodeResult :=
  encodeEnvelope msg.requestId (encodeReceiptsPayload msg.receipts)

def decodeReceipts (rlpData : ByteView) : DecodeResult ReceiptsMessage := do
  let (requestId, receipts) ← decodeEnvelope decodeReceiptsPayload rlpData
  return ⟨requestId, receipts⟩

def encodeGetPooledTransactions (msg : GetPooledTransactionsMessage) : EncodeResult :=
  encodeEnvelope msg.requestId (encodeHashList msg.transactionHashes)

def decodeGetPooledTransactions (rlpData : ByteView) : DecodeResult GetPooledTransactionsMessage := do
  let (requestId, transactionHashes) ← decodeEnvelope decodeHashList rlpData
  return ⟨requestId, transactionHashes⟩

def encodePooledTransactions (msg : PooledTransactionsMessage) : EncodeResult :=
  encodeEnvelope msg.requestId (encodePooledTransactionsPayload msg.encodedTransactions)

def decodePooledTransactions (rlpData : ByteView) : DecodeResult PooledTransactionsMessage := do
  let (requestId, encodedTransactions) ← decodeEnvelope decodePooledTransactionsPayload rlpData
  return ⟨requestId, encodedTransactions⟩

def encodeGetBlockBodies (msg : GetBlockBodiesMessage) : EncodeResult :=
  encodeEnvelope msg.requestId (encodeHashList msg.blockHashes)

def decodeGetBlockBodies (rlpData : ByteView) : DecodeResult GetBlockBodiesMessage := do
  let (requestId, blockHashes) ← decodeEnvelope decodeHashList rlpData
  return ⟨requestId, blockHashes⟩

def encodeBlockBodies (msg : BlockBodiesMessage) : EncodeResult :=
  encodeEnvelope msg.requestId (listOf (msg.bodies.forM encodeBlockBody))

def decodeBlockBodies (rlpData : ByteView) : DecodeResult BlockBodiesMessage := do
  let (requestId, bodies) ← decodeEnvelope (readListOf decodeBlockBody) rlpData
  return ⟨requestId, bodies⟩

end DevP2P.Eth
