import DevP2P.Eth.MessageRoundTrip

/-!
# Transactions in a pooled transactions message

A legacy transaction is one list. A typed one is a type byte and a list: the message writes both as they are, and its
decoder, which splits the payload into items, returns them as two transactions.

* `Transported` : the encodings of the transactions come back from a message, and each is decoded;
* `isItem_encoding_iff` : only the encoding of a legacy transaction is one item;
* `pooled_transport_iff` : a list of transactions is transported exactly if all of them are legacy ones.
-/

namespace DevP2P.Eth
open DevP2P.Lib DevP2P.Rlp

/-- The transactions are encoded; a message with their encodings is encoded and decoded again with the same encodings;
and each of these is decoded as its transaction, with the optional fields of its type. -/
def Transported (requestId : Uint64) (txs : List Transaction) : Prop :=
  ∃ encodedTransactions b, List.Forall₂ (fun tx encodedTx => encodeTransaction tx = .ok encodedTx) txs
    encodedTransactions ∧
    encodePooledTransactions ⟨some requestId, encodedTransactions⟩ = .ok b ∧
    decodePooledTransactions b = .ok ⟨some requestId, encodedTransactions⟩ ∧
    List.Forall₂ (fun tx encodedTx => decodeTransaction encodedTx = .ok tx.normalised) txs encodedTransactions

def pooledMessage (requestId : Uint64) (txs : List Transaction) : PooledTransactionsMessage :=
  ⟨some requestId, txs.map Transaction.encoding⟩

theorem isItem_encoding_iff {tx : Transaction} (hsize : (encodeFields tx.fields).length < kSizeModulus) :
    IsItem tx.encoding ↔ tx.type = .kLegacy := by
  have htyped {t : UInt8} (ht : encodeString [t] = [t]) : ¬ IsItem ([t] ++ encodeList (encodeFields tx.fields)) := by
    have hitem : IsItem (encodeString [t]) := isItem_encodeString (by rw [List.length_singleton]; decide)
    rw [ht] at hitem
    exact not_isItem_append hitem (encodeList_ne_nil _)
  unfold Transaction.encoding Transaction.typeBytes
  cases htype : tx.type with
  | kLegacy =>
      refine ⟨fun _ => rfl, fun _ => ?_⟩
      exact isItem_encodeList hsize
  | kAccessList => exact ⟨fun h => absurd h (htyped (by decide)), nofun⟩
  | kDynamicFee => exact ⟨fun h => absurd h (htyped (by decide)), nofun⟩

theorem encodePooledTransactions_eq {m : PooledTransactionsMessage}
    (hne : ∀ encodedTx ∈ m.encodedTransactions, encodedTx ≠ [])
    (hsize : m.encoding.length < 2 ^ 64) : encodePooledTransactions m = .ok m.encoding := by
  apply encodeEnvelope_eq _ hsize
  apply appends_listOf
  · exact Appends.each _ fun encodedTx h => (Appends.raw (hne encodedTx h)).withError _
  · have hle : (encodeList (m.encodedTransactions.flatMap id)).length ≤ m.encoding.length := by
      unfold PooledTransactionsMessage.encoding
      cases m.requestId with
      | none => exact le_rfl
      | some id => exact (List.sublist_append_right _ _).length_le.trans (length_le_encodeList _)
    exact lt_of_le_of_lt ((length_le_encodeList _).trans hle) hsize

section

variable {requestId : Uint64} {txs : List Transaction}
  (hsize : (pooledMessage requestId txs).encoding.length < 2 ^ 64)

include hsize

theorem length_fields_of_pooledMessage {tx : Transaction} (htx : tx ∈ txs) :
    (encodeFields tx.fields).length < kSizeModulus := by
  have hpayload := lt_of_le_of_lt (length_le_encodeList _) hsize
  rw [List.length_append] at hpayload
  have hlist : (encodeList ((txs.map Transaction.encoding).flatMap id)).length < kSizeModulus :=
    lt_of_le_of_lt (Nat.le_add_left _ _) hpayload
  have hitem : tx.encoding.length ≤ ((txs.map Transaction.encoding).flatMap id).length :=
    length_le_flatMap (f := id) (List.mem_map_of_mem htx)
  have := length_le_encodeList ((txs.map Transaction.encoding).flatMap id)
  have := tx.length_encodeFields_le
  omega

theorem encodedTransactions_eq {encodedTransactions : List ByteBuffer}
    (h : List.Forall₂ (fun tx encodedTx => encodeTransaction tx = .ok encodedTx) txs encodedTransactions) :
    encodedTransactions = txs.map Transaction.encoding := by
  apply eq_map_of_forall₂ h
  intro tx htx encodedTx hencode
  rw [encodeTransaction_eq (length_fields_of_pooledMessage hsize htx), Except.ok.injEq] at hencode
  exact hencode.symm

theorem forall₂_encoding {R : Transaction → ByteBuffer → Prop}
    (h : ∀ tx, (encodeFields tx.fields).length < kSizeModulus → R tx tx.encoding) :
    List.Forall₂ R txs (txs.map Transaction.encoding) := by
  rw [List.forall₂_map_right_iff, List.forall₂_same]
  exact fun tx htx => h tx (length_fields_of_pooledMessage hsize htx)

theorem isItem_of_decodePooledTransactions
    (h : decodePooledTransactions (pooledMessage requestId txs).encoding = .ok (pooledMessage requestId txs)) :
    ∀ tx ∈ txs, IsItem tx.encoding := by
  have hdecode := envelope_eq_ok (fun _ _ _ _ => PooledTransactionsMessage.mk.inj) h
  obtain ⟨q, ⟨ps, hread, -⟩, -, -⟩ := (decodeEnvelope_envelope_iff parses_decodePooledTransactionsPayload hsize).mp
    hdecode
  have hitems := forall_mem_of_forall₂ hread.flip fun p v (hp : v = p ∧ IsItem p) => hp.1 ▸ hp.2
  intro tx htx
  exact hitems _ (List.mem_map_of_mem htx)

end

/-- Transactions are transported exactly if all of them are legacy ones. -/
theorem pooled_transport_iff (requestId : Uint64) (txs : List Transaction)
    (hsize : (pooledMessage requestId txs).encoding.length < 2 ^ 64) :
    Transported requestId txs ↔ ∀ tx ∈ txs, tx.type = .kLegacy := by
  have hfields {tx : Transaction} (htx : tx ∈ txs) := length_fields_of_pooledMessage hsize htx
  refine ⟨?_, ?_⟩
  · intro ⟨encodedTransactions, b, hencoded, hencode, hdecode, _⟩ tx htx
    obtain rfl := encodedTransactions_eq hsize hencoded
    have hne : ∀ encodedTx ∈ txs.map Transaction.encoding, encodedTx ≠ [] := by
      rw [List.forall_mem_map]
      intro tx _ hnil
      exact encodeList_ne_nil _ (List.append_eq_nil_iff.mp hnil).2
    obtain rfl := Except.ok.inj ((encodePooledTransactions_eq hne hsize).symm.trans hencode)
    exact (isItem_encoding_iff (hfields htx)).mp (isItem_of_decodePooledTransactions hsize hdecode tx htx)
  · intro hlegacy
    have hitems : ∀ encodedTx ∈ txs.map Transaction.encoding, IsItem encodedTx :=
      List.forall_mem_map.mpr fun tx htx => (isItem_encoding_iff (hfields htx)).mpr (hlegacy tx htx)
    obtain ⟨b, hencode, hdecode⟩ := pooledTransactions_round_trip (m := pooledMessage requestId txs) rfl hitems hsize
    exact ⟨_, b, forall₂_encoding hsize fun _ => encodeTransaction_eq, hencode, hdecode,
      forall₂_encoding hsize fun _ => decodeTransaction_encoding_normalised⟩

/-- A transaction of the first typed kind with every field zero or empty. -/
def accessListTransaction : Transaction where
  type := .kAccessList
  nonce := 0
  gasLimit := 0
  recipient := none
  value := 0
  data := []
  gasPrice := none
  maxPriorityFeePerGas := none
  maxFeePerGas := none
  accessList := []
  chainId := none
  v := 0
  r := 0
  s := 0

/-- A call with data, signed for chain 1, and a contract's creation. -/
def legacyTransactions : List Transaction :=
  [{ accessListTransaction with
      type := .kLegacy, nonce := 9, gasLimit := 21000, recipient := some (.load _ (List.replicate 20 0x35)),
      value := 10 ^ 18, data := [0xA9, 0x05, 0x9C, 0xBB], gasPrice := some (20 * 10 ^ 9), v := 37, r := 2 ^ 255 + 1,
      s := 2 ^ 200 },
    { accessListTransaction with
      type := .kLegacy, nonce := 10, gasLimit := 300000, data := List.replicate 60 0x60, gasPrice := some 1, v := 28,
      r := 7, s := 11 }]

theorem pooled_transport_iff_legacy : Transported 1111 legacyTransactions :=
  (pooled_transport_iff 1111 legacyTransactions (by decide +kernel)).mpr (by decide)

/-- The type byte and the list of a typed transaction come back as two transactions. -/
theorem typed_transaction_is_split :
    encodeTransaction accessListTransaction =
        .ok [0x01, 0xCB, 0x01, 0x80, 0x80, 0x80, 0x80, 0x80, 0x80, 0xC0, 0x80, 0x80, 0x80] ∧
      encodePooledTransactions ⟨some 1, [[0x01, 0xCB, 0x01, 0x80, 0x80, 0x80, 0x80, 0x80, 0x80, 0xC0, 0x80,
        0x80, 0x80]]⟩ =
        .ok [0xCF, 0x01, 0xCD, 0x01, 0xCB, 0x01, 0x80, 0x80, 0x80, 0x80, 0x80, 0x80, 0xC0, 0x80, 0x80, 0x80] ∧
      decodePooledTransactions
          [0xCF, 0x01, 0xCD, 0x01, 0xCB, 0x01, 0x80, 0x80, 0x80, 0x80, 0x80, 0x80, 0xC0, 0x80, 0x80, 0x80] =
        .ok ⟨some 1, [[0x01], [0xCB, 0x01, 0x80, 0x80, 0x80, 0x80, 0x80, 0x80, 0xC0, 0x80, 0x80, 0x80]]⟩ := by
  decide +kernel

end DevP2P.Eth
