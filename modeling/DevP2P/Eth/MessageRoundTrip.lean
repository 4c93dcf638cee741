import DevP2P.Eth.MessageCodec
import DevP2P.Eth.StatusCodec

/-!
# Messages are decoded as they were encoded

* `RoundTrips encode decode m` : `m` is encoded, and decoded again as `m`;
* `ContentCodec`, `MessageKind` : what the kinds of messages that are sent in an envelope have in common;
* one definition of the bytes of each message, and the round trip of each kind;
* `messages_round_trip` : every message with a request id, and every message that has none by its kind.
-/

namespace DevP2P.Eth
open DevP2P.Lib DevP2P.Rlp Stateful

variable {α μ : Type}

/-- `m` is encoded, and decoded again as `m`. -/
def RoundTrips (encode : μ → EncodeResult) (decode : ByteView → DecodeResult μ) (m : μ) : Prop :=
  ∃ b, encode m = .ok b ∧ decode b = .ok m

/-! ## Requests and responses -/

/-- The content of a message: how it is written and read. Its bytes are a list. -/
structure ContentCodec (α : Type) where
  write : α → EncodeM Unit
  read : DecodeM α
  /-- What `read` accepts. -/
  Reads : α → Bytes → Prop
  /-- The content of the list. -/
  payload : α → Bytes
  /-- The contents that are read as they are written. -/
  Valid : α → Prop
  codes : Codes write Reads (fun a => encodeList (payload a)) Valid
  parses : Parses read Reads

/-- A kind of message that is sent in an envelope: a request id and a content. -/
structure MessageKind (α μ : Type) where
  message : Option Uint64 → α → μ
  encode : μ → EncodeResult
  decode : ByteView → DecodeResult μ
  content : ContentCodec α
  injective : Function.Injective2 message
  encode_eq : ∀ requestId a, encode (message requestId a) = encodeEnvelope requestId (content.write a)
  decode_eq : ∀ b, decode b = do
    let (requestId, a) ← decodeEnvelope content.read b
    return message requestId a

theorem MessageKind.round_trip (K : MessageKind α μ) {requestId : Option Uint64} {a : α} (hvalid : K.content.Valid a)
    (hid : requestId.isSome) (hsize : (envelope requestId (encodeList (K.content.payload a))).length < kSizeModulus) :
    RoundTrips K.encode K.decode (K.message requestId a) := by
  obtain ⟨id, rfl⟩ := Option.isSome_iff_exists.mp hid
  have hlt : (encodeList (K.content.payload a)).length < kSizeModulus := by
    have := lt_of_le_of_lt (length_le_encodeList _) hsize
    rw [List.length_append] at this
    omega
  obtain ⟨hwrite, hread⟩ := K.content.codes a hvalid hlt
  refine ⟨_, (K.encode_eq _ _).trans (encodeEnvelope_eq hwrite hsize), ?_⟩
  rw [K.decode_eq, (decodeEnvelope_envelope_iff K.content.parses hsize).mpr hread]
  rfl

def hashListEncoding (hashes : List Hash256) : Bytes := encodeList (encodeFields (hashes.map hashField))

theorem codes_hashList : Codes encodeHashList (fun hashes => (hashListField hashes).Reads) hashListEncoding
    fun _ => True := by
  intro hashes _ hsize
  have hsized : (hashListField hashes).Sized := lt_of_le_of_lt (length_le_encodeList _) hsize
  exact ⟨writes_hashList hsized, Field.reads_encoding hsized⟩

def headersCodec : ContentCodec (List BlockHeader) where
  write := encodeBlockHeadersPayload
  read := decodeBlockHeadersPayload
  Reads := ListOf (DecodedItem decodeBlockHeader)
  payload headers := headers.flatMap BlockHeader.encoding
  Valid _ := True
  codes := codes_headers
  parses := parses_decodeBlockHeadersPayload

def hashListCodec : ContentCodec (List Hash256) where
  write := encodeHashList
  read := decodeHashList
  Reads := fun hashes => (hashListField hashes).Reads
  payload hashes := encodeFields (hashes.map hashField)
  Valid _ := True
  codes := codes_hashList
  parses := parses_decodeHashList

def receiptsCodec : ContentCodec (List (List Receipt)) where
  write := encodeReceiptsPayload
  read := decodeReceiptsPayload
  Reads := ListOf (ListOf (DecodedItem decodeReceipt))
  payload receipts := receipts.flatMap fun blockReceipts => encodeList (blockReceipts.flatMap Receipt.encoding)
  Valid receipts := ∀ blockReceipts ∈ receipts, ∀ receipt ∈ blockReceipts, receipt.Normal
  codes := by exact codes_receipts
  parses := parses_decodeReceiptsPayload

def pooledCodec : ContentCodec (List ByteBuffer) where
  write := encodePooledTransactionsPayload
  read := decodePooledTransactionsPayload
  Reads := ListOf fun v p => v = p ∧ IsItem p
  payload encodedTransactions := encodedTransactions.flatMap id
  Valid encodedTransactions := ∀ encodedTx ∈ encodedTransactions, IsItem encodedTx
  codes := codes_pooled
  parses := parses_decodePooledTransactionsPayload

def bodiesCodec : ContentCodec (List BlockBody) where
  write := fun bodies => listOf (bodies.forM encodeBlockBody)
  read := readListOf decodeBlockBody
  Reads := ListOf BodyItem
  payload bodies := bodies.flatMap BlockBody.encoding
  Valid bodies := ∀ body ∈ bodies, ∀ tx ∈ body.transactions, tx.Normal
  codes := codes_bodies
  parses := parses_decodeBodies

def BlockHeadersMessage.encoding (m : BlockHeadersMessage) : Bytes := envelope m.requestId (headersEncoding m.headers)

def blockHeadersKind : MessageKind (List BlockHeader) BlockHeadersMessage :=
  ⟨.mk, encodeBlockHeaders, decodeBlockHeaders, headersCodec,
    fun _ _ _ _ => BlockHeadersMessage.mk.inj, fun _ _ => rfl, fun _ => rfl⟩

theorem blockHeaders_round_trip {m : BlockHeadersMessage} (hid : m.requestId.isSome)
    (hsize : m.encoding.length < 2 ^ 64) :
    RoundTrips encodeBlockHeaders decodeBlockHeaders m :=
  blockHeadersKind.round_trip trivial hid hsize

def GetReceiptsMessage.encoding (m : GetReceiptsMessage) : Bytes :=
  envelope m.requestId (hashListEncoding m.blockHashes)

def getReceiptsKind : MessageKind (List Hash256) GetReceiptsMessage :=
  ⟨.mk, encodeGetReceipts, decodeGetReceipts, hashListCodec,
    fun _ _ _ _ => GetReceiptsMessage.mk.inj, fun _ _ => rfl, fun _ => rfl⟩

theorem getReceipts_round_trip {m : GetReceiptsMessage} (hid : m.requestId.isSome)
    (hsize : m.encoding.length < 2 ^ 64) :
    RoundTrips encodeGetReceipts decodeGetReceipts m :=
  getReceiptsKind.round_trip trivial hid hsize

def ReceiptsMessage.encoding (m : ReceiptsMessage) : Bytes := envelope m.requestId (receiptsEncoding m.receipts)

def receiptsKind : MessageKind (List (List Receipt)) ReceiptsMessage :=
  ⟨.mk, encodeReceipts, decodeReceipts, receiptsCodec,
    fun _ _ _ _ => ReceiptsMessage.mk.inj, fun _ _ => rfl, fun _ => rfl⟩

theorem receipts_round_trip {m : ReceiptsMessage} (hid : m.requestId.isSome)
    (hnormal : ∀ blockReceipts ∈ m.receipts, ∀ receipt ∈ blockReceipts, receipt.Normal)
    (hsize : m.encoding.length < 2 ^ 64) : RoundTrips encodeReceipts decodeReceipts m :=
  receiptsKind.round_trip hnormal hid hsize

def GetPooledTransactionsMessage.encoding (m : GetPooledTransactionsMessage) : Bytes :=
  envelope m.requestId (hashListEncoding m.transactionHashes)

def getPooledTransactionsKind : MessageKind (List Hash256) GetPooledTransactionsMessage :=
  ⟨.mk, encodeGetPooledTransactions, decodeGetPooledTransactions, hashListCodec,
    fun _ _ _ _ => GetPooledTransactionsMessage.mk.inj, fun _ _ => rfl, fun _ => rfl⟩

theorem getPooledTransactions_round_trip {m : GetPooledTransactionsMessage} (hid : m.requestId.isSome)
    (hsize : m.encoding.length < 2 ^ 64) : RoundTrips encodeGetPooledTransactions decodeGetPooledTransactions m :=
  getPooledTransactionsKind.round_trip trivial hid hsize

def PooledTransactionsMessage.encoding (m : PooledTransactionsMessage) : Bytes :=
  envelope m.requestId (pooledEncoding m.encodedTransactions)

def pooledTransactionsKind : MessageKind (List ByteBuffer) PooledTransactionsMessage :=
  ⟨.mk, encodePooledTransactions, decodePooledTransactions, pooledCodec,
    fun _ _ _ _ => PooledTransactionsMessage.mk.inj, fun _ _ => rfl, fun _ => rfl⟩

theorem pooledTransactions_round_trip {m : PooledTransactionsMessage} (hid : m.requestId.isSome)
    (hitems : ∀ encodedTx ∈ m.encodedTransactions, IsItem encodedTx) (hsize : m.encoding.length < 2 ^ 64) :
    RoundTrips encodePooledTransactions decodePooledTransactions m :=
  pooledTransactionsKind.round_trip hitems hid hsize

def GetBlockBodiesMessage.encoding (m : GetBlockBodiesMessage) : Bytes :=
  envelope m.requestId (hashListEncoding m.blockHashes)

def getBlockBodiesKind : MessageKind (List Hash256) GetBlockBodiesMessage :=
  ⟨.mk, encodeGetBlockBodies, decodeGetBlockBodies, hashListCodec,
    fun _ _ _ _ => GetBlockBodiesMessage.mk.inj, fun _ _ => rfl, fun _ => rfl⟩

theorem getBlockBodies_round_trip {m : GetBlockBodiesMessage} (hid : m.requestId.isSome)
    (hsize : m.encoding.length < 2 ^ 64) : RoundTrips encodeGetBlockBodies decodeGetBlockBodies m :=
  getBlockBodiesKind.round_trip trivial hid hsize

def BlockBodiesMessage.encoding (m : BlockBodiesMessage) : Bytes := envelope m.requestId (bodiesEncoding m.bodies)

def blockBodiesKind : MessageKind (List BlockBody) BlockBodiesMessage :=
  ⟨.mk, encodeBlockBodies, decodeBlockBodies, bodiesCodec,
    fun _ _ _ _ => BlockBodiesMessage.mk.inj, fun _ _ => rfl, fun _ => rfl⟩

theorem blockBodies_round_trip {m : BlockBodiesMessage} (hid : m.requestId.isSome)
    (hnormal : ∀ body ∈ m.bodies, ∀ tx ∈ body.transactions, tx.Normal) (hsize : m.encoding.length < 2 ^ 64) :
    RoundTrips encodeBlockBodies decodeBlockBodies m :=
  blockBodiesKind.round_trip hnormal hid hsize

/-! ## Announcements -/

def NewBlockHashEntry.fields (entry : NewBlockHashEntry) : List Field :=
  [.string entry.hash.bytes, .number .uint64 entry.number]

def NewBlockHashEntry.field (entry : NewBlockHashEntry) : Field := .list (encodeFields entry.fields)

def NewBlockHashesMessage.encoding (m : NewBlockHashesMessage) : Bytes :=
  encodeList (encodeFields (m.entries.map NewBlockHashEntry.field))

theorem writes_newBlockHashEntry {entry : NewBlockHashEntry} (h : entry.field.Sized) :
    Appends (listOf do
      add (addBytes entry.hash.bytes)
      add (addUInt entry.number)) entry.field.encoding := by
  apply appends_listOf _ h
  apply (writes_fixed entry.hash (by decide)).field
  exact (writes_number _).lastField

theorem parses_newBlockHashFields : Parses (do
    let hash ← readFixed 32
    let number ← readNumber .uint64
    return ⟨hash, number⟩ : DecodeM NewBlockHashEntry) fun entry p => True ∧ Concat Field.Reads entry.fields p := by
  apply (parses_readFixed 32).field NewBlockHashEntry.hash
  intro hash
  apply (parses_readNumber .uint64).field NewBlockHashEntry.number
  intro number
  apply Parses.done
  rintro ⟨h, n⟩
  simp [and_comm]

theorem readNewBlockHashEntry_run {entry : NewBlockHashEntry} (h : entry.field.Sized) (r : Bytes) :
    readNewBlockHashEntry ⟨entry.field.encoding ++ r⟩ = .ok entry ⟨r⟩ := by
  unfold readNewBlockHashEntry
  apply (openList_eq_ok_iff parses_newBlockHashFields).mpr
  refine ⟨_, encodeFields entry.fields, ⟨h, by simp, ?_⟩, trivial, fieldsRead_encodeFields h⟩
  rw [NewBlockHashEntry.field, Field.encoding, encodeList, List.append_assoc]

theorem newBlockHashes_round_trip {m : NewBlockHashesMessage} (hsize : m.encoding.length < 2 ^ 64) :
    RoundTrips encodeNewBlockHashes decodeNewBlockHashes m := by
  have hpayload : (encodeFields (m.entries.map NewBlockHashEntry.field)).length < kSizeModulus :=
    lt_of_le_of_lt (length_le_encodeList _) hsize
  have hs := sized_of_length_encodeFields hpayload
  have hflat : encodeFields (m.entries.map NewBlockHashEntry.field) = m.entries.flatMap fun entry =>
      entry.field.encoding := by
    rw [encodeFields, List.flatMap_map]
  have hread : readItems readNewBlockHashEntry 0 ⟨m.entries.flatMap fun entry => entry.field.encoding⟩ =
      .ok m.entries ⟨[]⟩ := by
    apply readItems_run
    · intro entry
      exact encodeList_ne_nil _
    · intro entry hentry s
      exact readNewBlockHashEntry_run (hs _ (List.mem_map_of_mem hentry)) s
  refine ⟨m.encoding, finalizeEncoding_eq (appends_listOf_each _ (fun _ _ => writes_newBlockHashEntry) hpayload), ?_⟩
  apply outcome_eq_ok.mpr
  refine ⟨⟨[]⟩, ?_⟩
  rw [NewBlockHashesMessage.encoding,
    bind_of_ok (readListHeaderBytes_encodeList hpayload), readToEnd, hflat]
  exact bind_eq_ok.mpr ⟨_, _, hread, rfl⟩

def NewPooledTransactionHashesMessage.encoding (m : NewPooledTransactionHashesMessage) : Bytes :=
  hashListEncoding m.hashes

theorem newPooledTxHashes_round_trip {m : NewPooledTransactionHashesMessage} (hsize : m.encoding.length < 2 ^ 64) :
    RoundTrips encodeNewPooledTxHashes decodeNewPooledTxHashes m := by
  have hpayload : (encodeFields (m.hashes.map hashField)).length < kSizeModulus :=
    lt_of_le_of_lt (length_le_encodeList _) hsize
  have hflat : encodeFields (m.hashes.map hashField) = m.hashes.flatMap fun hash => (hashField hash).encoding := by
    rw [encodeFields, List.flatMap_map]
  have hread := readItems_run (fun hash : Hash256 => encodeString_ne_nil hash.bytes) m.hashes fun hash _ s =>
    (parses_readFixed 32).run ⟨by rw [hash.size_eq]; decide, rfl⟩ s
  refine ⟨m.encoding, finalizeEncoding_eq (codes_hashList m.hashes trivial hsize).1, ?_⟩
  apply outcome_eq_ok.mpr
  refine ⟨⟨[]⟩, ?_⟩
  rw [NewPooledTransactionHashesMessage.encoding, hashListEncoding,
    bind_of_ok (readListHeaderBytes_encodeList hpayload), readToEnd, hflat]
  exact bind_eq_ok.mpr ⟨_, _, hread, rfl⟩

/-- The list with the block of a `NewBlock` message. -/
def NewBlockMessage.blockEncoding (m : NewBlockMessage) : Bytes :=
  encodeList (m.header.encoding ++ (transactionsEncoding m.transactions ++ headersEncoding m.ommers))

def NewBlockMessage.encoding (m : NewBlockMessage) : Bytes :=
  encodeList (m.blockEncoding ++ (Field.number .uint256 m.totalDifficulty).encoding)

theorem newBlock_round_trip {m : NewBlockMessage} (hnormal : ∀ tx ∈ m.transactions, tx.Normal)
    (hsize : m.encoding.length < 2 ^ 64) : RoundTrips encodeNewBlock decodeNewBlock m := by
  have hpayload := lt_of_le_of_lt (length_le_encodeList _) hsize
  have hblock : (m.header.encoding ++ (transactionsEncoding m.transactions ++ headersEncoding m.ommers)).length <
      kSizeModulus := by
    have := length_le_encodeList (m.header.encoding ++
      (transactionsEncoding m.transactions ++ headersEncoding m.ommers))
    rw [List.length_append] at hpayload
    exact lt_of_le_of_lt (this.trans (Nat.le_add_right _ _)) hpayload
  have hparts := hblock
  simp only [List.length_append] at hparts
  obtain ⟨hwrite, hread⟩ := codes_blockHeader m.header trivial (by omega)
  obtain ⟨hwrite', hread'⟩ := codes_transactions m.transactions hnormal (by omega)
  obtain ⟨hwrite'', hread''⟩ := codes_headers m.ommers trivial (by omega)
  have hinner := ((parses_readDecoded decodeBlockHeader).bind fun header _ _ => parses_decodeTransactionList.bind
    fun transactions _ _ => parses_decodeBlockHeadersPayload.map fun ommers => (header, transactions, ommers)).list
  have hrun := hinner.run ⟨_, ⟨_, _, _, hread, ⟨_, _, _, hread', ⟨_, hread'', rfl⟩, rfl⟩, rfl⟩, hblock, rfl⟩
    (Field.number .uint256 m.totalDifficulty).encoding
  refine ⟨m.encoding, ?_, ?_⟩
  · apply finalizeEncoding_eq
    apply appends_listOf _ hpayload
    apply Appends.seq _ (writes_number _)
    apply appends_listOf _ hblock
    exact hwrite.seq (hwrite'.seq hwrite'')
  · have hnumber : (Field.number .uint256 m.totalDifficulty).Reads _ := Field.reads_encoding trivial
    have hlast := (parses_readNumber .uint256).run hnumber []
    rw [List.append_nil] at hlast
    apply outcome_eq_ok.mpr
    refine ⟨⟨[]⟩, ?_⟩
    rw [NewBlockMessage.encoding, bind_of_ok (readListHeaderBytes_encodeList hpayload),
      NewBlockMessage.blockEncoding, bind_of_ok hrun]
    exact bind_eq_ok.mpr ⟨_, _, hlast, rfl⟩

/-! ## Every kind of message -/

/-- Every message that has a request id, if its kind has one, is encoded and decoded again as it was. -/
theorem messages_round_trip :
    (∀ m : BlockHeadersMessage, m.requestId.isSome → m.encoding.length < 2 ^ 64 →
      RoundTrips encodeBlockHeaders decodeBlockHeaders m) ∧
    (∀ m : GetReceiptsMessage, m.requestId.isSome → m.encoding.length < 2 ^ 64 →
      RoundTrips encodeGetReceipts decodeGetReceipts m) ∧
    (∀ m : ReceiptsMessage, m.requestId.isSome →
      (∀ blockReceipts ∈ m.receipts, ∀ receipt ∈ blockReceipts, receipt.Normal) → m.encoding.length < 2 ^ 64 →
      RoundTrips encodeReceipts decodeReceipts m) ∧
    (∀ m : GetPooledTransactionsMessage, m.requestId.isSome → m.encoding.length < 2 ^ 64 →
      RoundTrips encodeGetPooledTransactions decodeGetPooledTransactions m) ∧
    (∀ m : PooledTransactionsMessage, m.requestId.isSome → (∀ encodedTx ∈ m.encodedTransactions, IsItem encodedTx) →
      m.encoding.length < 2 ^ 64 → RoundTrips encodePooledTransactions decodePooledTransactions m) ∧
    (∀ m : GetBlockBodiesMessage, m.requestId.isSome → m.encoding.length < 2 ^ 64 →
      RoundTrips encodeGetBlockBodies decodeGetBlockBodies m) ∧
    (∀ m : BlockBodiesMessage, m.requestId.isSome → (∀ body ∈ m.bodies, ∀ tx ∈ body.transactions, tx.Normal) →
      m.encoding.length < 2 ^ 64 → RoundTrips encodeBlockBodies decodeBlockBodies m) ∧
    (∀ m : NewBlockMessage, (∀ tx ∈ m.transactions, tx.Normal) → m.encoding.length < 2 ^ 64 →
      RoundTrips encodeNewBlock decodeNewBlock m) ∧
    (∀ m : NewBlockHashesMessage, m.encoding.length < 2 ^ 64 → RoundTrips encodeNewBlockHashes decodeNewBlockHashes m) ∧
    (∀ m : NewPooledTransactionHashesMessage, m.encoding.length < 2 ^ 64 →
      RoundTrips encodeNewPooledTxHashes decodeNewPooledTxHashes m) ∧
    ∀ m : StatusMessage, m.Supported → RoundTrips encodeStatus decodeStatus m := by
  refine ⟨?_, ?_, ?_, ?_, ?_, ?_, ?_, ?_, ?_, ?_, ?_⟩
  · exact fun _ => blockHeaders_round_trip
  · exact fun _ => getReceipts_round_trip
  · exact fun _ => receipts_round_trip
  · exact fun _ => getPooledTransactions_round_trip
  · exact fun _ => pooledTransactions_round_trip
  · exact fun _ => getBlockBodies_round_trip
  · exact fun _ => blockBodies_round_trip
  · exact fun _ => newBlock_round_trip
  · exact fun _ => newBlockHashes_round_trip
  · exact fun _ => newPooledTxHashes_round_trip
  · exact fun m hsupported => ⟨m.encoding, encodeStatus_eq m, decodeStatus_encoding hsupported⟩

/-- Bodies with a transaction of a typed kind, behind the request id 1111. -/
def feeBodies : BlockBodiesMessage := ⟨some 1111, [⟨[feeTransaction.normalised], []⟩]⟩

theorem messages_round_trip_feeBodies : feeBodies.requestId = some 1111 ∧
    RoundTrips encodeBlockBodies decodeBlockBodies feeBodies := by
  obtain ⟨-, -, -, -, -, -, hbodies, -⟩ := messages_round_trip
  refine ⟨rfl, hbodies feeBodies rfl ?_ (by decide +kernel)⟩
  simp only [feeBodies, List.mem_singleton, forall_eq]
  exact feeTransaction.normal_normalised

end DevP2P.Eth
