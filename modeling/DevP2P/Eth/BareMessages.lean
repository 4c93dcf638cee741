import DevP2P.Eth.MessageRoundTrip

/-!
# Messages without a request id

The encoders write a message without a request id as its payload alone. The decoders open one list before they look for
a request id, and then read the payload with its own list header: what they open is the payload, and the payload's first
element is what they take for the payload.

* `not_listOf_of_content` : a list of lists is not read again from the content of its list;
* `MessageKind.bare` : the same for a message of one kind; `RequestMessage` : a message of one of the seven kinds;
* `bare_messages_never_round_trip` : no message without a request id is decoded as it was encoded.
-/

namespace DevP2P.Eth
open DevP2P.Lib DevP2P.Rlp

variable {α μ : Type}

theorem not_listOf_of_content {G : α → Bytes → Prop} {content : α → Bytes} {as : List α}
    (hsize : (as.flatMap fun a => encodeList (content a)).length < kSizeModulus)
    (hcontent : ∀ a ∈ as, (content a).length < kSizeModulus → ¬ G a (content a)) :
    ¬ ListOf G as (as.flatMap fun a => encodeList (content a)) := by
  have hitem (a : α) (ha : a ∈ as) : (content a).length < kSizeModulus := by
    have hle := length_le_flatMap (f := fun a => encodeList (content a)) ha
    exact lt_of_le_of_lt ((length_le_encodeList _).trans hle) hsize
  rintro ⟨q, hread, hq, heq⟩
  cases as with
  | nil => exact encodeList_ne_nil q heq.symm
  | cons a as =>
      have ha := hitem a List.mem_cons_self
      rw [List.flatMap_cons, ← List.append_nil (encodeList q)] at heq
      obtain ⟨hfirst, hrest⟩ := isItem_prefixFree.append_inj (isItem_encodeList ha) (isItem_encodeList hq) heq
      obtain rfl : content a = q := encodeList_inj ha hq hfirst
      -- nothing is left of the list behind its first element
      obtain rfl : as = [] := by
        cases as with
        | nil => rfl
        | cons a' as =>
            rw [List.flatMap_cons] at hrest
            exact absurd (List.append_eq_nil_iff.mp hrest).1 (encodeList_ne_nil _)
      exact hcontent a List.mem_cons_self ha (concat_singleton.mp hread)

theorem MessageKind.bare (K : MessageKind α μ) {requestId : Option Uint64} {a : α} (hid : requestId = none)
    (hvalid : K.content.Valid a) (hsize : (envelope requestId (encodeList (K.content.payload a))).length < kSizeModulus)
    (hcontent : ¬ K.content.Reads a (K.content.payload a)) :
    ¬ RoundTrips K.encode K.decode (K.message requestId a) := by
  subst hid
  rintro ⟨b, hencode, hdecode⟩
  rw [K.encode_eq, encodeEnvelope_eq (K.content.codes a hvalid hsize).1 hsize, Except.ok.injEq] at hencode
  subst hencode
  rw [K.decode_eq] at hdecode
  have hlt := lt_of_le_of_lt (length_le_encodeList _) hsize
  exact hcontent (decodeEnvelope_none K.content.parses hlt (envelope_eq_ok K.injective hdecode))

/-! ## The kinds of messages -/

theorem not_headers_content {headers : List BlockHeader} (hsize : (headersEncoding headers).length < kSizeModulus) :
    ¬ ListOf (DecodedItem decodeBlockHeader) headers (headers.flatMap BlockHeader.encoding) := by
  apply not_listOf_of_content (lt_of_le_of_lt (length_le_encodeList _) hsize)
  intro header _ _ hdecoded
  exact not_isItem_encodeFields (show header.parentHash.bytes.length <
    _ by rw [header.parentHash.size_eq]; decide) hdecoded.1

theorem blockHeaders_bare {m : BlockHeadersMessage} (hid : m.requestId = none) (hsize : m.encoding.length < 2 ^ 64) :
    ¬ RoundTrips encodeBlockHeaders decodeBlockHeaders m := by
  obtain ⟨requestId, content⟩ := m
  obtain rfl : requestId = none := hid
  exact blockHeadersKind.bare rfl trivial hsize (not_headers_content hsize)

theorem not_hashList_content (hashes : List Hash256) :
    ¬ (hashListField hashes).Reads (encodeFields (hashes.map hashField)) :=
  fun h => ne_encodeList _ h.2

theorem getReceipts_bare {m : GetReceiptsMessage} (hid : m.requestId = none) (hsize : m.encoding.length < 2 ^ 64) :
    ¬ RoundTrips encodeGetReceipts decodeGetReceipts m :=
  getReceiptsKind.bare hid trivial hsize (not_hashList_content _)

theorem not_receipts_content {receipts : List (List Receipt)}
    (hsize : (receiptsEncoding receipts).length < kSizeModulus) :
    ¬ ListOf (ListOf (DecodedItem decodeReceipt)) receipts
      (receipts.flatMap fun blockReceipts => encodeList (blockReceipts.flatMap Receipt.encoding)) := by
  apply not_listOf_of_content (lt_of_le_of_lt (length_le_encodeList _) hsize)
  intro blockReceipts _ hblock
  apply not_listOf_of_content hblock
  intro receipt _ hreceipt hdecoded
  exact not_isItem_encodeFields (sized_of_length_encodeFields hreceipt _ List.mem_cons_self) hdecoded.1

theorem receipts_bare {m : ReceiptsMessage} (hid : m.requestId = none)
    (hnormal : ∀ blockReceipts ∈ m.receipts, ∀ receipt ∈ blockReceipts, receipt.Normal)
    (hsize : m.encoding.length < 2 ^ 64) : ¬ RoundTrips encodeReceipts decodeReceipts m := by
  obtain ⟨requestId, content⟩ := m
  obtain rfl : requestId = none := hid
  exact receiptsKind.bare rfl hnormal hsize (not_receipts_content hsize)

theorem getPooledTransactions_bare {m : GetPooledTransactionsMessage} (hid : m.requestId = none)
    (hsize : m.encoding.length < 2 ^ 64) :
    ¬ RoundTrips encodeGetPooledTransactions decodeGetPooledTransactions m :=
  getPooledTransactionsKind.bare hid trivial hsize (not_hashList_content _)

theorem not_pooled_content (encodedTransactions : List ByteBuffer) :
    ¬ ListOf (fun v p => v = p ∧ IsItem p) encodedTransactions (encodedTransactions.flatMap id) := by
  rintro ⟨q, hread, -, heq⟩
  have hq : q = encodedTransactions.flatMap id := concat_eq_iff.mp (hread.mono fun _ _ _ h => h.1.symm)
  rw [← hq] at heq
  exact ne_encodeList q heq

theorem pooledTransactions_bare {m : PooledTransactionsMessage} (hid : m.requestId = none)
    (hitems : ∀ encodedTx ∈ m.encodedTransactions, IsItem encodedTx) (hsize : m.encoding.length < 2 ^ 64) :
    ¬ RoundTrips encodePooledTransactions decodePooledTransactions m :=
  pooledTransactionsKind.bare hid hitems hsize (not_pooled_content _)

theorem getBlockBodies_bare {m : GetBlockBodiesMessage} (hid : m.requestId = none)
    (hsize : m.encoding.length < 2 ^ 64) :
    ¬ RoundTrips encodeGetBlockBodies decodeGetBlockBodies m :=
  getBlockBodiesKind.bare hid trivial hsize (not_hashList_content _)

theorem not_bodies_content {bodies : List BlockBody} (hsize : (bodiesEncoding bodies).length < kSizeModulus) :
    ¬ ListOf BodyItem bodies (bodies.flatMap BlockBody.encoding) := by
  apply not_listOf_of_content (lt_of_le_of_lt (length_le_encodeList _) hsize)
  rintro body - hbody ⟨q₁, q₂, -, -, hq, heq⟩
  have htxs : (body.transactions.flatMap Transaction.listed).length < kSizeModulus := by
    rw [List.length_append] at hbody
    exact lt_of_le_of_lt ((length_le_encodeList _).trans (Nat.le_add_right _ _)) hbody
  apply not_isItem_append (isItem_encodeList htxs) (encodeList_ne_nil (body.ommers.flatMap BlockHeader.encoding))
  have hitem := isItem_encodeList hq
  rwa [← heq] at hitem

theorem blockBodies_bare {m : BlockBodiesMessage} (hid : m.requestId = none)
    (hnormal : ∀ body ∈ m.bodies, ∀ tx ∈ body.transactions, tx.Normal) (hsize : m.encoding.length < 2 ^ 64) :
    ¬ RoundTrips encodeBlockBodies decodeBlockBodies m := by
  obtain ⟨requestId, content⟩ := m
  obtain rfl : requestId = none := hid
  exact blockBodiesKind.bare rfl hnormal hsize (not_bodies_content hsize)

/-! ## All of them -/

/-- A message of a kind that is sent with or without a request id. -/
inductive RequestMessage
  | blockHeaders (m : BlockHeadersMessage)
  | getReceipts (m : GetReceiptsMessage)
  | receipts (m : ReceiptsMessage)
  | getPooledTransactions (m : GetPooledTransactionsMessage)
  | pooledTransactions (m : PooledTransactionsMessage)
  | getBlockBodies (m : GetBlockBodiesMessage)
  | blockBodies (m : BlockBodiesMessage)

namespace RequestMessage

def requestId : RequestMessage → Option Uint64
  | blockHeaders m => m.requestId
  | getReceipts m => m.requestId
  | receipts m => m.requestId
  | getPooledTransactions m => m.requestId
  | pooledTransactions m => m.requestId
  | getBlockBodies m => m.requestId
  | blockBodies m => m.requestId

/-- The objects in the message are such that it is decoded again when it has a request id. -/
def Valid : RequestMessage → Prop
  | receipts m => ∀ blockReceipts ∈ m.receipts, ∀ receipt ∈ blockReceipts, receipt.Normal
  | pooledTransactions m => ∀ encodedTx ∈ m.encodedTransactions, IsItem encodedTx
  | blockBodies m => ∀ body ∈ m.bodies, ∀ tx ∈ body.transactions, tx.Normal
  | _ => True

def encoding : RequestMessage → Bytes
  | blockHeaders m => m.encoding
  | getReceipts m => m.encoding
  | receipts m => m.encoding
  | getPooledTransactions m => m.encoding
  | pooledTransactions m => m.encoding
  | getBlockBodies m => m.encoding
  | blockBodies m => m.encoding

def ReadBack : RequestMessage → Prop
  | blockHeaders m => RoundTrips encodeBlockHeaders decodeBlockHeaders m
  | getReceipts m => RoundTrips encodeGetReceipts decodeGetReceipts m
  | receipts m => RoundTrips encodeReceipts decodeReceipts m
  | getPooledTransactions m => RoundTrips encodeGetPooledTransactions decodeGetPooledTransactions m
  | pooledTransactions m => RoundTrips encodePooledTransactions decodePooledTransactions m
  | getBlockBodies m => RoundTrips encodeGetBlockBodies decodeGetBlockBodies m
  | blockBodies m => RoundTrips encodeBlockBodies decodeBlockBodies m

end RequestMessage

/-- No message without a request id is decoded as it was encoded, whatever it holds. -/
theorem bare_messages_never_round_trip (m : RequestMessage) (hid : m.requestId = none) (hvalid : m.Valid)
    (hsize : m.encoding.length < 2 ^ 64) : ¬ m.ReadBack := by
  cases m with
  | blockHeaders m => exact blockHeaders_bare hid hsize
  | getReceipts m => exact getReceipts_bare hid hsize
  | receipts m => exact receipts_bare hid hvalid hsize
  | getPooledTransactions m => exact getPooledTransactions_bare hid hsize
  | pooledTransactions m => exact pooledTransactions_bare hid hvalid hsize
  | getBlockBodies m => exact getBlockBodies_bare hid hsize
  | blockBodies m => exact blockBodies_bare hid hvalid hsize

theorem bare_messages_never_round_trip_feeBodies :
    ¬ RoundTrips encodeBlockBodies decodeBlockBodies { feeBodies with requestId := none } := by
  apply bare_messages_never_round_trip (.blockBodies { feeBodies with requestId := none }) rfl
  · show ∀ body ∈ feeBodies.bodies, _
    simp only [feeBodies, List.mem_singleton, forall_eq]
    exact feeTransaction.normal_normalised
  · decide +kernel

/-- The receipts of one block that has none: the list of the blocks is opened in place of an envelope, and no block is
left. -/
theorem bare_receipts_lose_a_block : encodeReceipts ⟨none, [[]]⟩ = .ok [0xC1, 0xC0] ∧
    decodeReceipts [0xC1, 0xC0] = .ok ⟨none, []⟩ ∧ ¬ RoundTrips encodeReceipts decodeReceipts ⟨none, [[]]⟩ := by
  have hencode : encodeReceipts ⟨none, [[]]⟩ = .ok [0xC1, 0xC0] := by decide +kernel
  have hdecode : decodeReceipts [0xC1, 0xC0] = .ok ⟨none, []⟩ := by decide +kernel
  refine ⟨hencode, hdecode, ?_⟩
  rintro ⟨b, hb, hok⟩
  obtain rfl := Except.ok.inj (hencode.symm.trans hb)
  rw [hdecode] at hok
  simp at hok

end DevP2P.Eth
