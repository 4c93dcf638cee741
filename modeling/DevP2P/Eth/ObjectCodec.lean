import DevP2P.Eth.ObjectFields

/-!
# Encoders and decoders of the objects

* `encodeTransaction_eq`, `encodeReceipt_eq`, `encodeBlockHeader_eq` : what the encoders write, for an object whose
  encoding has a size;
* `readTransaction_eq_ok_iff`, `readReceipt_eq_ok_iff`, `readBlockHeader_eq_ok_iff` : what the decoders accept: a list
  header, then the fields of the object, whatever the header says about where they end;
* `transaction_round_trip` : a transaction is decoded as it was encoded, up to the optional fields of its type.
-/

namespace DevP2P.Eth
open DevP2P.Lib DevP2P.Rlp Stateful

/-! ## Calls -/

section

variable {x : EncodeM Unit} {p : Bytes}

theorem writes_string {s : Bytes} (h : (Field.string s).Sized) : Appends (add (addBytes s)) (Field.string s).encoding :=
  (Appends.bytes h).withError _

theorem writes_fixed {n : Nat} (a : FixedBytes n) (h : n < kSizeModulus) :
    Appends (add (addBytes a.bytes)) (Field.string a.bytes).encoding :=
  (Appends.fixed a h).withError _

theorem writes_number {T : UIntTy} (n : T.Val) : Appends (add (addUInt n)) (Field.number T n).encoding :=
  (Appends.uint n).withError _

theorem appends_listOf (hx : Appends x p) (h : (Field.list p).Sized) : Appends (listOf x) (Field.list p).encoding := by
  intro buf starts
  unfold listOf
  rw [bind_of_ok (withError_eq_ok.mpr (beginList_run buf starts)), bind_of_ok (hx _ _),
    withError_eq_ok]
  exact endList_run h buf starts

theorem appends_listOf_each {α : Type} {call : α → EncodeM Unit} {F : α → Field} (as : List α)
    (hcall : ∀ a ∈ as, (F a).Sized → Appends (call a) (F a).encoding)
    (h : (Field.list (encodeFields (as.map F))).Sized) :
    Appends (listOf (as.forM call)) (Field.list (encodeFields (as.map F))).encoding := by
  have heach : Appends (as.forM call) (as.flatMap fun a => (F a).encoding) := by
    apply Appends.each
    intro a ha
    exact hcall a ha (sized_of_length_encodeFields h (F a) (List.mem_map_of_mem ha))
  have hmap : encodeFields (as.map F) = as.flatMap fun a => (F a).encoding := by
    rw [encodeFields, List.flatMap_map]
  rw [hmap] at h ⊢
  exact appends_listOf heach h

theorem finalizeEncoding_eq (hx : Appends x p) : finalizeEncoding x = .ok p := by
  unfold finalizeEncoding RlpEncoder.new
  rw [bind_of_ok (hx [] []), List.nil_append, getBytes_run]
  rfl

end

theorem writes_hashList {hashes : List Hash256} (h : (hashListField hashes).Sized) :
    Appends (encodeHashList hashes) (hashListField hashes).encoding :=
  appends_listOf_each hashes (fun hash _ _ => writes_fixed hash (by decide)) h

theorem writes_logEntry {entry : LogEntry} (h : entry.field.Sized) :
    Appends (addLogEntry entry) entry.field.encoding := by
  have hs := sized_of_length_encodeFields h
  apply appends_listOf _ h
  apply (writes_fixed entry.address (by decide)).field
  apply (writes_hashList (hs _ (by simp [LogEntry.fields]))).field
  exact (writes_string (hs _ (by simp [LogEntry.fields]))).lastField

theorem writes_accessListEntry {entry : AccessListEntry} (h : entry.field.Sized) :
    Appends (addAccessListEntry entry) entry.field.encoding := by
  have hs := sized_of_length_encodeFields h
  apply appends_listOf _ h
  apply (writes_fixed entry.address (by decide)).field
  exact (writes_hashList (hs _ (by simp [AccessListEntry.fields]))).lastField

theorem writes_accessList {accessList : List AccessListEntry} (h : (accessListField accessList).Sized) :
    Appends (encodeAccessList accessList) (accessListField accessList).encoding :=
  appends_listOf_each accessList (fun _ _ => writes_accessListEntry) h

theorem writes_recipient (recipient : Option Address) :
    Appends (addRecipient recipient) (recipientField recipient).encoding := by
  cases recipient with
  | none => exact writes_string (by unfold Field.Sized; decide)
  | some address => exact writes_fixed address (by decide)

/-! ## Transactions -/

namespace Transaction

def encoding (tx : Transaction) : Bytes := tx.typeBytes ++ encodeList (encodeFields tx.fields)

/-- The transaction with exactly the optional fields of its type. -/
def normalised (tx : Transaction) : Transaction :=
  match tx.type with
  | .kLegacy =>
    { tx with gasPrice := some (tx.gasPrice.getD 0), maxPriorityFeePerGas := none, maxFeePerGas := none,
              accessList := [], chainId := none }
  | .kAccessList =>
    { tx with gasPrice := some (tx.gasPrice.getD 0), maxPriorityFeePerGas := none, maxFeePerGas := none,
              chainId := some (tx.chainId.getD kDefaultChainId) }
  | .kDynamicFee =>
    { tx with gasPrice := none, maxPriorityFeePerGas := some (tx.maxPriorityFeePerGas.getD 0),
              maxFeePerGas := some (tx.maxFeePerGas.getD 0), chainId := some (tx.chainId.getD kDefaultChainId) }

theorem length_encodeFields_le (tx : Transaction) : (encodeFields tx.fields).length ≤ tx.encoding.length := by
  have := length_le_encodeList (encodeFields tx.fields)
  rw [encoding, List.length_append]
  omega

theorem normal_normalised (tx : Transaction) : tx.normalised.Normal := by
  unfold normalised
  cases tx.type <;> simp [Normal, Fees.Normal, fees]

theorem fields_normalised (tx : Transaction) : tx.normalised.fields = tx.fields := by
  unfold normalised
  cases h : tx.type <;> simp [h, fields, legacyFields, typedFields, fees, Fees.fields]

theorem encoding_normalised (tx : Transaction) : tx.normalised.encoding = tx.encoding := by
  have htype : tx.normalised.typeBytes = tx.typeBytes := by
    unfold normalised
    cases h : tx.type <;> simp [h, typeBytes]
  rw [encoding, encoding, fields_normalised, htype]

end Transaction

theorem appends_typedTail {tx : Transaction} (hdata : (Field.string tx.data).Sized)
    (haccess : (accessListField tx.accessList).Sized) :
    Appends (do
      add (addUInt tx.gasLimit)
      addRecipient tx.recipient
      add (addUInt tx.value)
      add (addBytes tx.data)
      encodeAccessList tx.accessList
      add (addUInt tx.v)
      add (addUInt tx.r)
      add (addUInt tx.s))
      (encodeFields [.number .uint64 tx.gasLimit, recipientField tx.recipient, .number .uint256 tx.value,
        .string tx.data, accessListField tx.accessList, .number .uint256 tx.v, .number .uint256 tx.r,
        .number .uint256 tx.s]) := by
  apply (writes_number _).field
  apply (writes_recipient _).field
  apply (writes_number _).field
  apply (writes_string hdata).field
  apply (writes_accessList haccess).field
  apply (writes_number _).field
  apply (writes_number _).field
  exact (writes_number _).lastField

theorem encodeTransaction_eq {tx : Transaction} (hsize : (encodeFields tx.fields).length < kSizeModulus) :
    encodeTransaction tx = .ok tx.encoding := by
  have hs := sized_of_length_encodeFields hsize
  unfold encodeTransaction Transaction.encoding Transaction.typeBytes Transaction.fields at *
  cases htype : tx.type with
  | kLegacy =>
      simp only [htype] at *
      apply finalizeEncoding_eq
      apply appends_listOf _ hsize
      apply (writes_number _).field
      apply (writes_number _).field
      apply (writes_number _).field
      apply (writes_recipient _).field
      apply (writes_number _).field
      apply (writes_string (hs _ (by simp [Transaction.legacyFields]))).field
      apply (writes_number _).field
      apply (writes_number _).field
      exact (writes_number _).lastField
  | kAccessList =>
      simp only [htype] at *
      rw [finalizeEncoding_eq (appends_listOf (p := encodeFields (tx.typedFields .kAccessList)) _ hsize)]
      · rfl
      · apply (writes_number _).field
        apply (writes_number _).field
        apply (writes_number _).field
        exact appends_typedTail (hs _ (by simp [Transaction.typedFields])) (hs _ (by simp [Transaction.typedFields]))
  | kDynamicFee =>
      simp only [htype] at *
      rw [finalizeEncoding_eq (appends_listOf (p := encodeFields (tx.typedFields .kDynamicFee)) _ hsize)]
      · rfl
      · apply (writes_number _).field
        apply (writes_number _).field
        apply (writes_number _).field
        apply (writes_number _).field
        exact appends_typedTail (hs _ (by simp [Transaction.typedFields])) (hs _ (by simp [Transaction.typedFields]))

/-! ## Receipts and block headers -/

def Receipt.encoding (receipt : Receipt) : Bytes := encodeList (encodeFields receipt.fields)

theorem writes_statusOrStateRoot {receipt : Receipt} (h : receipt.Normal) :
    Appends (addStatusOrStateRoot receipt)
      (Receipt.outcomeField (receipt.stateRoot, receipt.status)).encoding := by
  rcases receipt with ⟨_ | stateRoot, _ | status, _, _, _⟩
  · simp [Receipt.Normal, Receipt.OneOutcome] at h
  · cases status with
    | false => exact writes_number (T := .uint8) 0
    | true => exact writes_number (T := .uint8) 1
  · exact writes_fixed stateRoot (by decide)
  · simp [Receipt.Normal, Receipt.OneOutcome] at h

theorem encodeReceipt_eq {receipt : Receipt} (h : receipt.Normal)
    (hsize : (encodeFields receipt.fields).length < kSizeModulus) : encodeReceipt receipt = .ok receipt.encoding := by
  have hs := sized_of_length_encodeFields hsize
  apply finalizeEncoding_eq
  apply appends_listOf _ hsize
  apply (writes_statusOrStateRoot h).field
  apply (writes_number _).field
  apply (writes_fixed receipt.bloom (by decide)).field
  exact (appends_listOf_each _ (fun _ _ => writes_logEntry) (hs _ (by simp [Receipt.fields]))).lastField

def BlockHeader.encoding (header : BlockHeader) : Bytes := encodeList (encodeFields header.fields)

theorem writes_baseFee (header : BlockHeader) :
    Appends (addBaseFee header.baseFeePerGas) (encodeFields header.baseFeeFields) := by
  unfold BlockHeader.baseFeeFields
  cases header.baseFeePerGas with
  | none =>
      intro buf starts
      rw [Option.map_none, Option.toList_none, encodeFields_nil, List.append_nil]
      rfl
  | some baseFee => exact (writes_number baseFee).lastField

theorem encodeBlockHeader_eq {header : BlockHeader} (hsize : (encodeFields header.fields).length < kSizeModulus) :
    encodeBlockHeader header = .ok header.encoding := by
  have hs := sized_of_length_encodeFields hsize
  apply finalizeEncoding_eq
  apply appends_listOf _ hsize
  apply (writes_fixed header.parentHash (by decide)).field
  apply (writes_fixed header.ommersHash (by decide)).field
  apply (writes_fixed header.beneficiary (by decide)).field
  apply (writes_fixed header.stateRoot (by decide)).field
  apply (writes_fixed header.transactionsRoot (by decide)).field
  apply (writes_fixed header.receiptsRoot (by decide)).field
  apply (writes_fixed header.logsBloom (by decide)).field
  apply (writes_number _).field
  apply (writes_number _).field
  apply (writes_number _).field
  apply (writes_number _).field
  apply (writes_number _).field
  apply (writes_string (hs _ (by simp [BlockHeader.fields, BlockHeader.mainFields]))).field
  apply (writes_fixed header.mixHash (by decide)).field
  apply (writes_fixed header.nonce (by decide)).field
  exact writes_baseFee header

/-! ## What the decoders accept -/

/-- `b` is the header of a list of `n` bytes, then `p`, then `r`; the list ends where it declares to, not where `p`
ends. -/
def Opens (n : Nat) (p r b : Bytes) : Prop :=
  n < kSizeModulus ∧ n ≤ (p ++ r).length ∧ b = headerBytes true n ++ (p ++ r)

theorem openList_eq_ok_iff {α : Type} {x : DecodeM α} {G : α → Bytes → Prop} (hx : Parses x G)
    {b r : ByteView} {v : α} :
    openList x ⟨b⟩ = .ok v ⟨r⟩ ↔ ∃ n p, Opens n p r b ∧ G v p := by
  unfold openList
  rw [bind_eq_ok]
  constructor
  · rintro ⟨n, ⟨w⟩, hheader, hok⟩
    obtain ⟨hn, hle, rfl⟩ := readListHeaderBytes_eq_ok_iff.mp hheader
    obtain ⟨p, hp, rfl⟩ := (hx _ _ _).mp hok
    exact ⟨n, p, ⟨hn, hle, rfl⟩, hp⟩
  · rintro ⟨n, p, ⟨hn, hle, rfl⟩, hp⟩
    exact ⟨n, ⟨p ++ r⟩, readListHeaderBytes_eq_ok_iff.mpr ⟨hn, hle, rfl⟩, hx.run hp r⟩

theorem first_of_opens {n : Nat} {p r b : Bytes} (h : Opens n p r b) : kRlpListPrefixMin ≤ (Bytes.at b 0).toNat := by
  obtain ⟨hn, -, hb⟩ := h
  cases b with
  | nil => exact absurd hb.symm (by simp [headerBytes_ne_nil])
  | cons x b =>
      unfold kRlpListPrefixMin
      rw [Bytes.at_cons_zero]
      rcases (cons_eq_headerBytes_iff hn).mp hb with ⟨-, hx, -⟩ | ⟨-, hx, -⟩
      · simp only [if_true] at hx
        omega
      · simp only [if_true] at hx
        omega

theorem typeOfByte_eq_ok_iff {x : UInt8} {type : TransactionType} :
    typeOfByte x = .ok type ↔ type ≠ .kLegacy ∧ x = type.toByte := by
  unfold typeOfByte
  by_cases h1 : x = TransactionType.kAccessList.toByte
  · subst h1
    cases type <;> simp [TransactionType.toByte]
  · by_cases h2 : x = TransactionType.kDynamicFee.toByte
    · subst h2
      cases type <;> simp [TransactionType.toByte]
    · rw [if_neg h1, if_neg h2]
      cases type <;> simp_all

theorem readTransaction_eq_ok_iff {b r : ByteView} {tx : Transaction} :
    readTransaction ⟨b⟩ = .ok tx ⟨r⟩ ↔
      tx.Normal ∧ ∃ n p c, b = tx.typeBytes ++ c ∧ Opens n p r c ∧ Concat Field.Reads tx.fields p := by
  unfold readTransaction
  rw [get_bind, rejectIf_bind_eq_ok]
  have hbytes (htype : tx.type ≠ .kLegacy) : tx.typeBytes = [tx.type.toByte] := by
    unfold Transaction.typeBytes
    cases h : tx.type with
    | kLegacy => exact absurd h htype
    | _ => rfl
  constructor
  · rintro ⟨hne, hok⟩
    obtain ⟨x, c, rfl⟩ := List.exists_cons_of_ne_nil hne
    by_cases hx : (Bytes.at (x :: c) 0).toNat < kRlpListPrefixMin
    · simp only [if_pos hx] at hok
      obtain ⟨type, d, hlift, hok⟩ := bind_eq_ok.mp hok
      obtain ⟨htype, rfl⟩ := lift_eq_ok.mp hlift
      obtain ⟨hlegacy, rfl⟩ := typeOfByte_eq_ok_iff.mp htype
      rw [bind_of_ok (dropFront_apply _ _)] at hok
      obtain ⟨n, p, hopens, ⟨rfl, hnormal⟩, hp⟩ := (openList_eq_ok_iff (parses_readTypedFields hlegacy)).mp hok
      exact ⟨hnormal, n, p, c, by rw [hbytes hlegacy]; rfl, hopens, hp⟩
    · simp only [if_neg hx] at hok
      obtain ⟨n, p, hopens, ⟨htype, hnormal⟩, hp⟩ := (openList_eq_ok_iff parses_readLegacyFields).mp hok
      exact ⟨hnormal, n, p, x :: c, by simp [Transaction.typeBytes, htype], hopens, hp⟩
  · rintro ⟨hnormal, n, p, c, rfl, hopens, hp⟩
    by_cases htype : tx.type = .kLegacy
    · have hb : tx.typeBytes ++ c = c := by simp [Transaction.typeBytes, htype]
      have hfirst := first_of_opens hopens
      have hne : c ≠ [] := by
        rintro rfl
        simp [kRlpListPrefixMin, Bytes.at] at hfirst
      rw [hb]
      refine ⟨hne, ?_⟩
      simp only [if_neg (not_lt.mpr hfirst)]
      exact (openList_eq_ok_iff parses_readLegacyFields).mpr ⟨n, p, hopens, ⟨htype, hnormal⟩, hp⟩
    · rw [hbytes htype, List.singleton_append]
      refine ⟨by simp, ?_⟩
      have hfirst : (Bytes.at (tx.type.toByte :: c) 0).toNat < kRlpListPrefixMin := by
        rw [Bytes.at_cons_zero]
        cases tx.type <;> decide
      have hbyte : typeOfByte (Bytes.at (tx.type.toByte :: c) 0) = .ok tx.type := typeOfByte_eq_ok_iff.mpr ⟨htype, rfl⟩
      simp only [if_pos hfirst]
      rw [bind_of_ok (lift_eq_ok.mpr ⟨hbyte, rfl⟩), bind_of_ok (dropFront_apply _ _)]
      exact (openList_eq_ok_iff (parses_readTypedFields htype)).mpr ⟨n, p, hopens, ⟨rfl, hnormal⟩, hp⟩

theorem readReceipt_eq_ok_iff {b r : ByteView} {receipt : Receipt} :
    readReceipt ⟨b⟩ = .ok receipt ⟨r⟩ ↔
      receipt.Normal ∧ ∃ n p, Opens n p r b ∧ Concat Field.Reads receipt.fields p := by
  unfold readReceipt
  rw [openList_eq_ok_iff parses_readReceiptFields]
  constructor
  · rintro ⟨n, p, hopens, hnormal, hp⟩
    exact ⟨hnormal, n, p, hopens, hp⟩
  · rintro ⟨hnormal, n, p, hopens, hp⟩
    exact ⟨n, p, hopens, hnormal, hp⟩

/-- The base fee is read from whatever is left. -/
theorem readBaseFee_eq_ok_iff {header header' : BlockHeader} {b r : ByteView} :
    readBaseFee header ⟨b⟩ = .ok header' ⟨r⟩ ↔
      (b = [] ∧ r = [] ∧ header' = header) ∨
        ∃ baseFee p, (Field.number .uint256 baseFee).Reads p ∧ b = p ++ r ∧
          header' = { header with baseFeePerGas := some baseFee } := by
  have hfee := (parses_readNumber .uint256).map fun baseFee => { header with baseFeePerGas := some baseFee }
  unfold readBaseFee
  rw [get_bind]
  cases b with
  | nil =>
      rw [if_pos (show RlpDecoder.isFinished ⟨[]⟩ = true from rfl), pure_eq_ok, RlpDecoder.mk.injEq]
      constructor
      · rintro ⟨rfl, rfl⟩
        exact .inl ⟨rfl, rfl, rfl⟩
      · rintro (⟨-, rfl, rfl⟩ | ⟨baseFee, p, hp, hnil, -⟩)
        · exact ⟨rfl, rfl⟩
        · exact absurd (List.append_eq_nil_iff.mp hnil.symm).1 hp.isItem.ne_nil
  | cons x b =>
      rw [if_neg (show ¬ RlpDecoder.isFinished ⟨x :: b⟩ = true by simp [RlpDecoder.isFinished]), hfee]
      constructor
      · rintro ⟨p, ⟨baseFee, hp, rfl⟩, hb⟩
        exact .inr ⟨baseFee, p, hp, hb, rfl⟩
      · rintro (⟨hnil, -⟩ | ⟨baseFee, p, hp, hb, rfl⟩)
        · simp at hnil
        · exact ⟨p, ⟨baseFee, hp, rfl⟩, hb⟩

theorem readBlockHeader_eq_ok_iff {b r : ByteView} {header : BlockHeader} :
    readBlockHeader ⟨b⟩ = .ok header ⟨r⟩ ↔
      (header.baseFeePerGas = none → r = []) ∧ ∃ n p, Opens n p r b ∧ Concat Field.Reads header.fields p := by
  unfold readBlockHeader openList
  rw [bind_eq_ok]
  simp only [BlockHeader.fields, concat_append]
  constructor
  · rintro ⟨n, ⟨w⟩, hheader, hok⟩
    obtain ⟨hn, hle, rfl⟩ := readListHeaderBytes_eq_ok_iff.mp hheader
    obtain ⟨header', p, b', ⟨hnone, hp⟩, rfl, hfee⟩ := parses_readHeaderFields.bind_eq_ok.mp hok
    rcases readBaseFee_eq_ok_iff.mp hfee with ⟨rfl, rfl, rfl⟩ | ⟨baseFee, q, hq, rfl, rfl⟩
    · refine ⟨fun _ => rfl, n, p, ⟨hn, hle, rfl⟩, p, [], hp, ?_, (List.append_nil p).symm⟩
      simp [BlockHeader.baseFeeFields, hnone]
    · refine ⟨by simp, n, p ++ q, ⟨hn, by rwa [List.append_assoc], by rw [List.append_assoc]⟩, p, q, hp, ?_, rfl⟩
      exact concat_singleton.mpr hq
  · rintro ⟨hr, n, p, ⟨hn, hle, rfl⟩, q, q', hq, hq', rfl⟩
    rw [List.append_assoc] at hle ⊢
    refine ⟨n, _, readListHeaderBytes_eq_ok_iff.mpr ⟨hn, hle, rfl⟩, parses_readHeaderFields.bind_eq_ok.mpr
      ⟨{ header with baseFeePerGas := none }, q, q' ++ r, ⟨rfl, hq⟩, rfl, readBaseFee_eq_ok_iff.mpr ?_⟩⟩
    unfold BlockHeader.baseFeeFields at hq'
    cases hfee : header.baseFeePerGas with
    | none =>
        rw [hfee, Option.map_none, Option.toList_none, concat_nil] at hq'
        refine .inl ⟨?_, hr hfee, ?_⟩
        · rw [hq', hr hfee, List.nil_append]
        · rw [← hfee]
    | some baseFee =>
        rw [hfee, Option.map_some, Option.toList_some, concat_singleton] at hq'
        exact .inr ⟨baseFee, q', hq', rfl, by rw [← hfee]⟩

/-! ## Round trips -/

theorem eq_of_opens {n : Nat} {p q r rest : Bytes} (hq : q.length < kSizeModulus)
    (h : Opens n p rest (encodeList q ++ r)) : n = q.length ∧ q ++ r = p ++ rest := by
  obtain ⟨hn, hle, heq⟩ := h
  rw [encodeList, List.append_assoc] at heq
  obtain ⟨hlen, hpayload⟩ := headerBytes_append_inj hq (by simp) hn hle heq
  exact ⟨hlen.symm, hpayload⟩

theorem opens_encodeList {p : Bytes} (h : p.length < kSizeModulus) : Opens p.length p [] (encodeList p) :=
  ⟨h, by simp, by rw [List.append_nil]; rfl⟩

theorem decodeTransaction_encoding {tx : Transaction} (hnormal : tx.Normal)
    (hsize : (encodeFields tx.fields).length < kSizeModulus) : decodeTransaction tx.encoding = .ok tx := by
  apply outcome_eq_ok.mpr
  exact ⟨⟨[]⟩, readTransaction_eq_ok_iff.mpr ⟨hnormal, _, _, _, rfl, opens_encodeList hsize,
    fieldsRead_encodeFields hsize⟩⟩

theorem decodeTransaction_encoding_normalised {tx : Transaction}
    (hsize : (encodeFields tx.fields).length < kSizeModulus) :
    decodeTransaction tx.encoding = .ok tx.normalised := by
  rw [← tx.encoding_normalised]
  apply decodeTransaction_encoding tx.normal_normalised
  rwa [tx.fields_normalised]

theorem decodeReceipt_encoding {receipt : Receipt} (hnormal : receipt.Normal)
    (hsize : (encodeFields receipt.fields).length < kSizeModulus) : decodeReceipt receipt.encoding = .ok receipt := by
  apply outcome_eq_ok.mpr
  exact ⟨⟨[]⟩, readReceipt_eq_ok_iff.mpr ⟨hnormal, _, _, opens_encodeList hsize, fieldsRead_encodeFields hsize⟩⟩

theorem decodeBlockHeader_encoding {header : BlockHeader} (hsize : (encodeFields header.fields).length < kSizeModulus) :
    decodeBlockHeader header.encoding = .ok header := by
  apply outcome_eq_ok.mpr
  exact ⟨⟨[]⟩, readBlockHeader_eq_ok_iff.mpr ⟨fun _ => rfl, _, _, opens_encodeList hsize,
    fieldsRead_encodeFields hsize⟩⟩

/-- **The transaction codec.** Every transaction whose encoding has a size is encoded, and decoded again as the
transaction with exactly the optional fields of its type: an absent price or fee is zero, an absent chain id is one, and
what the type does not carry is gone. -/
theorem transaction_round_trip (tx : Transaction) (hsize : tx.encoding.length < 2 ^ 64) :
    ∃ b, encodeTransaction tx = .ok b ∧ decodeTransaction b = .ok tx.normalised := by
  have hfields := lt_of_le_of_lt tx.length_encodeFields_le hsize
  exact ⟨tx.encoding, encodeTransaction_eq hfields, decodeTransaction_encoding_normalised hfields⟩

/-- A call with a fee and no chain id, which passes on a price that its type does not carry. -/
def feeTransaction : Transaction where
  type := .kDynamicFee
  nonce := 7
  gasLimit := 21000
  recipient := some (.zero 20)
  value := 1
  data := [0xCA, 0xFE]
  gasPrice := some 5
  maxPriorityFeePerGas := none
  maxFeePerGas := some 300
  accessList := [⟨.zero 20, [.zero 32]⟩]
  chainId := none
  v := 1
  r := 2
  s := 3

theorem transaction_round_trip_fee : feeTransaction.normalised.chainId = some 1 ∧
    feeTransaction.normalised.gasPrice = none ∧
    ∃ b, encodeTransaction feeTransaction = .ok b ∧ decodeTransaction b = .ok feeTransaction.normalised :=
  ⟨rfl, rfl, transaction_round_trip feeTransaction (by decide)⟩

end DevP2P.Eth
