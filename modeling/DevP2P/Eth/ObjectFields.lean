import DevP2P.Eth.Objects

/-!
# The fields of the objects

* `Transaction.fields`, `Receipt.fields`, `BlockHeader.fields` : the fields of an object in the order of the wire;
* `Transaction.Normal`, `Receipt.Normal` : exactly the optional fields are set that the wire carries;
* `parses_readLegacyFields`, `parses_readTypedFields`, `parses_readReceiptFields`, `parses_readHeaderFields` : the
  decoders accept these fields.
-/

namespace DevP2P.Eth
open DevP2P.Lib DevP2P.Rlp Stateful

/-! ## Layouts -/

def hashField (hash : Hash256) : Field := .string hash.bytes

def hashListField (hashes : List Hash256) : Field := .list (encodeFields (hashes.map hashField))

def LogEntry.fields (entry : LogEntry) : List Field :=
  [.string entry.address.bytes, hashListField entry.topics, .string entry.data]

def LogEntry.field (entry : LogEntry) : Field := .list (encodeFields entry.fields)

def AccessListEntry.fields (entry : AccessListEntry) : List Field :=
  [.string entry.address.bytes, hashListField entry.storageKeys]

def AccessListEntry.field (entry : AccessListEntry) : Field := .list (encodeFields entry.fields)

def accessListField (accessList : List AccessListEntry) : Field :=
  .list (encodeFields (accessList.map AccessListEntry.field))

def recipientField : Option Address → Field
  | some address => .string address.bytes
  | none => .string []

/-- The fees on the wire; an absent one is zero. -/
def Fees.fields (type : TransactionType) (fees : Fees) : List Field :=
  match type with
  | .kDynamicFee => [.number .uint256 (fees.maxPriorityFeePerGas.getD 0), .number .uint256 (fees.maxFeePerGas.getD 0)]
  | _ => [.number .uint256 (fees.gasPrice.getD 0)]

/-- Exactly the fees of the type are set. -/
def Fees.Normal (type : TransactionType) (fees : Fees) : Prop :=
  match type with
  | .kDynamicFee => fees.gasPrice = none ∧ fees.maxPriorityFeePerGas.isSome ∧ fees.maxFeePerGas.isSome
  | _ => fees.gasPrice.isSome ∧ fees.maxPriorityFeePerGas = none ∧ fees.maxFeePerGas = none

instance (type : TransactionType) (fees : Fees) : Decidable (fees.Normal type) := by
  unfold Fees.Normal
  cases type <;> infer_instance

namespace Transaction

def fees (tx : Transaction) : Fees := ⟨tx.gasPrice, tx.maxPriorityFeePerGas, tx.maxFeePerGas⟩

def legacyFields (tx : Transaction) : List Field :=
  .number .uint64 tx.nonce :: (tx.fees.fields .kLegacy ++
    [.number .uint64 tx.gasLimit, recipientField tx.recipient, .number .uint256 tx.value, .string tx.data,
      .number .uint256 tx.v, .number .uint256 tx.r, .number .uint256 tx.s])

/-- The fields of a typed transaction; an absent chain id is the default. -/
def typedFields (type : TransactionType) (tx : Transaction) : List Field :=
  .number .uint64 (tx.chainId.getD kDefaultChainId) :: .number .uint64 tx.nonce :: (tx.fees.fields type ++
    [.number .uint64 tx.gasLimit, recipientField tx.recipient, .number .uint256 tx.value, .string tx.data,
      accessListField tx.accessList, .number .uint256 tx.v, .number .uint256 tx.r, .number .uint256 tx.s])

def fields (tx : Transaction) : List Field :=
  match tx.type with
  | .kLegacy => tx.legacyFields
  | type => tx.typedFields type

def typeBytes (tx : Transaction) : Bytes :=
  match tx.type with
  | .kLegacy => []
  | type => [type.toByte]

theorem typeBytes_cases (tx : Transaction) :
    tx.typeBytes = [] ∨ ∃ t : UInt8, t.toNat < kRlpListPrefixMin ∧ tx.typeBytes = [t] := by
  unfold typeBytes
  cases tx.type with
  | kLegacy => exact .inl rfl
  | kAccessList => exact .inr ⟨_, by decide, rfl⟩
  | kDynamicFee => exact .inr ⟨_, by decide, rfl⟩

/-- Exactly the optional fields are set that the type carries. -/
def Normal (tx : Transaction) : Prop :=
  tx.fees.Normal tx.type ∧
    match tx.type with
    | .kLegacy => tx.accessList = [] ∧ tx.chainId = none
    | _ => tx.chainId.isSome

instance (tx : Transaction) : Decidable tx.Normal := by
  unfold Normal
  cases tx.type <;> infer_instance

end Transaction

namespace Receipt

def outcomeField : Option Hash256 × Option Bool → Field
  | (some root, _) => .string root.bytes
  | (none, some status) => .status status
  | (none, none) => .string []

/-- Exactly one of the state root and the status is set. -/
def OneOutcome (outcome : Option Hash256 × Option Bool) : Prop := outcome.1.isSome ↔ outcome.2 = none

def fields (receipt : Receipt) : List Field :=
  [outcomeField (receipt.stateRoot, receipt.status), .number .uint256 receipt.cumulativeGasUsed,
    .string receipt.bloom.bytes, .list (encodeFields (receipt.logs.map LogEntry.field))]

/-- Exactly one of the state root and the status is set. -/
def Normal (receipt : Receipt) : Prop := OneOutcome (receipt.stateRoot, receipt.status)

instance (receipt : Receipt) : Decidable receipt.Normal := by
  unfold Normal OneOutcome
  infer_instance

end Receipt

namespace BlockHeader

def baseFeeFields (header : BlockHeader) : List Field := (header.baseFeePerGas.map (Field.number .uint256)).toList

/-- The fields every block header has. -/
def mainFields (header : BlockHeader) : List Field :=
  [.string header.parentHash.bytes, .string header.ommersHash.bytes, .string header.beneficiary.bytes,
    .string header.stateRoot.bytes, .string header.transactionsRoot.bytes, .string header.receiptsRoot.bytes,
    .string header.logsBloom.bytes, .number .uint256 header.difficulty, .number .uint64 header.number,
    .number .uint64 header.gasLimit, .number .uint64 header.gasUsed, .number .uint64 header.timestamp,
    .string header.extraData, .string header.mixHash.bytes, .string header.nonce.bytes]

def fields (header : BlockHeader) : List Field := header.mainFields ++ header.baseFeeFields

end BlockHeader

/-! ## Reads of a field -/

theorem parses_readFixed (n : Nat) : Parses (readFixed n) fun a => (Field.string a.bytes).Reads :=
  (Parses.array n).withError _

theorem parses_readNumber (T : UIntTy) : Parses (readNumber T) fun n => (Field.number T n).Reads :=
  (Parses.uint T).withError _

theorem parses_readData : Parses readData fun s => (Field.string s).Reads := Parses.bytes.withError _

theorem parses_decodeHashList : Parses decodeHashList fun hashes => (hashListField hashes).Reads :=
  (parses_readFixed 32).exactListOf fun _ => trivial

theorem parses_decodeLogEntryFromDecoder : Parses decodeLogEntryFromDecoder fun entry => entry.field.Reads := by
  refine Parses.exactList LogEntry.fields ?_ ?_
  · unfold LogEntry.fields
    refine (parses_readFixed 20).field LogEntry.address fun address => ?_
    refine parses_decodeHashList.field LogEntry.topics fun topics => ?_
    refine parses_readData.field LogEntry.data fun data => ?_
    refine Parses.done fun entry => ⟨?_, ?_⟩
    · rintro ⟨rfl, rfl, rfl, -⟩
      rfl
    · rintro rfl
      exact ⟨rfl, rfl, rfl, trivial⟩
  · intro entry
    simp [LogEntry.fields, hashListField, Field.Exact]

theorem parses_decodeAccessListEntryFromDecoder :
    Parses decodeAccessListEntryFromDecoder fun entry => entry.field.Reads := by
  refine Parses.exactList AccessListEntry.fields ?_ ?_
  · unfold AccessListEntry.fields
    refine (parses_readFixed 20).field AccessListEntry.address fun address => ?_
    refine parses_decodeHashList.field AccessListEntry.storageKeys fun storageKeys => ?_
    refine Parses.done fun entry => ⟨?_, ?_⟩
    · rintro ⟨rfl, rfl, -⟩
      rfl
    · rintro rfl
      exact ⟨rfl, rfl, trivial⟩
  · intro entry
    simp [AccessListEntry.fields, hashListField, Field.Exact]

theorem parses_decodeAccessList : Parses decodeAccessList fun accessList => (accessListField accessList).Reads :=
  parses_decodeAccessListEntryFromDecoder.exactListOf fun _ => trivial

theorem parses_readRecipient : Parses readRecipient fun recipient => (recipientField recipient).Reads := by
  have hnone := parses_readData.map fun _ => (none : Option Address)
  have hsome := (parses_readFixed 20).map some
  intro b v r
  unfold readRecipient
  rw [get_bind, peekHeader_bind_eq_ok]
  constructor
  · rintro ⟨h, w, hc, hok⟩
    by_cases h0 : h.payloadSizeBytes = 0
    · rw [if_pos h0] at hok
      obtain ⟨p, ⟨s, ⟨hs, rfl⟩, rfl⟩, rfl⟩ := (hnone _ _ _).mp hok
      obtain rfl : s = [] := List.length_eq_zero_iff.mp ((hc.of_encodeString hs).2.symm.trans h0)
      exact ⟨_, ⟨hs, rfl⟩, rfl⟩
    · rw [if_neg h0] at hok
      obtain ⟨p, ⟨a, ha, rfl⟩, rfl⟩ := (hsome _ _ _).mp hok
      exact ⟨p, ha, rfl⟩
  · rintro ⟨p, hp, rfl⟩
    cases v with
    | none =>
        obtain ⟨hs, rfl⟩ := hp
        obtain ⟨h, hc, -, hsize⟩ := canonicalHeader_encodeString hs r
        refine ⟨h, _, hc, ?_⟩
        rw [if_pos (show h.payloadSizeBytes = 0 from hsize)]
        exact hnone.run ⟨[], ⟨hs, rfl⟩, rfl⟩ r
    | some a =>
        obtain ⟨h, hc, -, hsize⟩ := canonicalHeader_encodeString hp.1 r
        rw [← hp.2] at hc
        refine ⟨h, _, hc, ?_⟩
        rw [if_neg (by rw [hsize, a.size_eq]; decide)]
        exact hsome.run ⟨a, hp, rfl⟩ r

theorem parses_decodeStatusOrStateRoot : Parses decodeStatusOrStateRoot fun outcome p =>
    Receipt.OneOutcome outcome ∧ Concat Field.Reads [Receipt.outcomeField outcome] p := by
  have hroot := (Parses.array 32).map fun root => ((some root, none) : Option Hash256 × Option Bool)
  intro b v r
  unfold decodeStatusOrStateRoot
  simp only [concat_singleton]
  rw [get_bind, peekHeader_bind_eq_ok]
  constructor
  · rintro ⟨h, w, hc, hok⟩
    obtain ⟨-, hok⟩ := rejectIf_bind_eq_ok.mp hok
    by_cases h32 : h.payloadSizeBytes = 32
    · rw [if_pos h32] at hok
      obtain ⟨p, ⟨a, ha, rfl⟩, rfl⟩ := (hroot _ _ _).mp hok
      exact ⟨p, ⟨by simp [Receipt.OneOutcome], ha⟩, rfl⟩
    · rw [if_neg h32] at hok
      obtain ⟨s, p, b', ⟨hs, rfl⟩, rfl, hend⟩ := Parses.bytes.bind_eq_ok.mp hok
      rcases s with _ | ⟨x, _ | ⟨y, s⟩⟩
      · obtain ⟨rfl, ⟨⟩⟩ := pure_eq_ok.mp hend
        exact ⟨_, ⟨by simp [Receipt.OneOutcome], .inl ⟨rfl, rfl⟩⟩, rfl⟩
      · obtain ⟨rfl, ⟨⟩⟩ := pure_eq_ok.mp hend
        exact ⟨_, ⟨by simp [Receipt.OneOutcome], .inr ⟨x, rfl, rfl⟩⟩, rfl⟩
      · cases hend
  · rintro ⟨p, ⟨hone, hp⟩, rfl⟩
    rcases v with ⟨_ | root, _ | status⟩
    · simp [Receipt.OneOutcome] at hone
    · have hstatus {s : Bytes} (hs : s.length < 2) : ∃ h w, CanonicalHeader (encodeString s ++ r) h w ∧
          h.list = false ∧ h.payloadSizeBytes ≠ 32 := by
        obtain ⟨h, hc, hl, hsize⟩ := canonicalHeader_encodeString (lt_trans hs (by decide)) r
        exact ⟨h, _, hc, hl, by omega⟩
      rcases hp with ⟨rfl, rfl⟩ | ⟨x, rfl, rfl⟩
      · obtain ⟨h, w, hc, hl, hsize⟩ := hstatus (show ([] : Bytes).length < 2 by decide)
        refine ⟨h, w, hc, ?_⟩
        rw [rejectIf_bind_of_not (by simp [hl]), if_neg hsize,
          bind_of_ok (Parses.bytes.run ⟨by decide, rfl⟩ r)]
        rfl
      · obtain ⟨h, w, hc, hl, hsize⟩ := hstatus (show [x].length < 2 by simp)
        refine ⟨h, w, hc, ?_⟩
        rw [rejectIf_bind_of_not (by simp [hl]), if_neg hsize,
          bind_of_ok (Parses.bytes.run ⟨by rw [List.length_singleton]; decide, rfl⟩ r)]
        rfl
    · obtain ⟨h, hc, hl, hsize⟩ := canonicalHeader_encodeString hp.1 r
      rw [← hp.2] at hc
      refine ⟨h, _, hc, ?_⟩
      rw [rejectIf_bind_of_not (by simp [hl]), if_pos (hsize.trans root.size_eq)]
      exact hroot.run ⟨root, hp, rfl⟩ r
    · simp [Receipt.OneOutcome] at hone

/-! ## Objects -/

theorem parses_readFees {type : TransactionType} (htype : type ≠ .kLegacy) :
    Parses (readFees type) fun fees p => fees.Normal type ∧ Concat Field.Reads (fees.fields type) p := by
  unfold readFees
  cases type with
  | kLegacy => exact absurd rfl htype
  | kAccessList =>
      rw [if_pos rfl]
      apply ((parses_readNumber .uint256).map fun gasPrice => (⟨some gasPrice, none, none⟩ : Fees)).congr
      intro fees p
      constructor
      · rintro ⟨gasPrice, hp, rfl⟩
        exact ⟨⟨rfl, rfl, rfl⟩, concat_singleton.mpr hp⟩
      · rintro ⟨⟨hprice, hpriority, hmax⟩, hp⟩
        obtain ⟨gasPrice, hprice⟩ := Option.isSome_iff_exists.mp hprice
        rcases fees with ⟨_, _, _⟩
        obtain ⟨rfl, rfl, rfl⟩ : _ ∧ _ ∧ _ := ⟨hprice, hpriority, hmax⟩
        exact ⟨gasPrice, concat_singleton.mp hp, rfl⟩
  | kDynamicFee =>
      rw [if_neg (by decide)]
      apply ((parses_readNumber .uint256).bind fun maxPriorityFee _ _ =>
        (parses_readNumber .uint256).map fun maxFee => (⟨none, some maxPriorityFee, some maxFee⟩ : Fees)).congr
      intro fees p
      constructor
      · rintro ⟨maxPriorityFee, q, r, hq, ⟨maxFee, hr, rfl⟩, rfl⟩
        exact ⟨⟨rfl, rfl, rfl⟩, concat_cons.mpr ⟨q, r, hq, concat_singleton.mpr hr, rfl⟩⟩
      · rintro ⟨⟨hprice, hpriority, hmax⟩, hp⟩
        obtain ⟨maxPriorityFee, hpriority⟩ := Option.isSome_iff_exists.mp hpriority
        obtain ⟨maxFee, hmax⟩ := Option.isSome_iff_exists.mp hmax
        rcases fees with ⟨_, _, _⟩
        obtain ⟨rfl, rfl, rfl⟩ : _ ∧ _ ∧ _ := ⟨hprice, hpriority, hmax⟩
        obtain ⟨q, r, hq, hr, rfl⟩ := concat_cons.mp hp
        exact ⟨maxPriorityFee, q, r, hq, ⟨maxFee, concat_singleton.mp hr, rfl⟩, rfl⟩

theorem parses_readLegacyFields :
    Parses readLegacyFields fun tx p => (tx.type = .kLegacy ∧ tx.Normal) ∧ Concat Field.Reads tx.fields p := by
  have hread : Parses readLegacyFields fun tx p =>
      (tx.type = .kLegacy ∧ tx.Normal) ∧ Concat Field.Reads tx.legacyFields p := by
    unfold Transaction.legacyFields
    refine (parses_readNumber .uint64).field Transaction.nonce fun nonce => ?_
    refine (parses_readNumber .uint256).field (fun tx : Transaction => tx.gasPrice.getD 0) fun gasPrice => ?_
    refine (parses_readNumber .uint64).field Transaction.gasLimit fun gasLimit => ?_
    refine parses_readRecipient.field Transaction.recipient fun recipient => ?_
    refine (parses_readNumber .uint256).field Transaction.value fun value => ?_
    refine parses_readData.field Transaction.data fun data => ?_
    refine (parses_readNumber .uint256).field Transaction.v fun v => ?_
    refine (parses_readNumber .uint256).field Transaction.r fun r => ?_
    refine (parses_readNumber .uint256).field Transaction.s fun s => ?_
    refine Parses.done fun tx => ⟨?_, ?_⟩
    · rintro ⟨rfl, rfl, rfl, rfl, rfl, rfl, rfl, rfl, rfl, htype, hnormal⟩
      rcases tx with ⟨type, _, _, _, _, _, gasPrice, _, _, _, _, _, _, _⟩
      obtain rfl : type = .kLegacy := htype
      obtain ⟨⟨hprice, hpriority, hmax⟩, haccess, hchain⟩ := hnormal
      obtain ⟨gasPrice, hprice⟩ := Option.isSome_iff_exists.mp hprice
      obtain ⟨rfl, rfl, rfl, rfl, rfl⟩ : _ ∧ _ ∧ _ ∧ _ ∧ _ := ⟨hprice, hpriority, hmax, haccess, hchain⟩
      rfl
    · rintro rfl
      exact ⟨rfl, rfl, rfl, rfl, rfl, rfl, rfl, rfl, rfl, rfl, ⟨rfl, rfl, rfl⟩, rfl, rfl⟩
  apply hread.congr
  intro tx p
  apply and_congr_right
  rintro ⟨htype, -⟩
  simp only [Transaction.fields, htype]

theorem parses_readTypedFields {type : TransactionType} (htype : type ≠ .kLegacy) :
    Parses (readTypedFields type) fun tx p => (tx.type = type ∧ tx.Normal) ∧ Concat Field.Reads tx.fields p := by
  have hread : Parses (readTypedFields type) fun tx p => (tx.type = type ∧ tx.chainId.isSome ∧ tx.fees.Normal type) ∧
      Concat Field.Reads (tx.typedFields type) p := by
    unfold Transaction.typedFields
    refine (parses_readNumber .uint64).field (fun tx : Transaction => tx.chainId.getD kDefaultChainId) fun chainId => ?_
    refine (parses_readNumber .uint64).field Transaction.nonce fun nonce => ?_
    refine (parses_readFees htype).fields Transaction.fees (fun tx h => h.2.2.2.2) fun fees hfees => ?_
    refine (parses_readNumber .uint64).field Transaction.gasLimit fun gasLimit => ?_
    refine parses_readRecipient.field Transaction.recipient fun recipient => ?_
    refine (parses_readNumber .uint256).field Transaction.value fun value => ?_
    refine parses_readData.field Transaction.data fun data => ?_
    refine parses_decodeAccessList.field Transaction.accessList fun accessList => ?_
    refine (parses_readNumber .uint256).field Transaction.v fun v => ?_
    refine (parses_readNumber .uint256).field Transaction.r fun r => ?_
    refine (parses_readNumber .uint256).field Transaction.s fun s => ?_
    refine Parses.done fun tx => ⟨?_, ?_⟩
    · rintro ⟨rfl, rfl, rfl, rfl, rfl, rfl, rfl, rfl, rfl, rfl, rfl, htype, hchain, -⟩
      rcases tx with ⟨type', _, _, _, _, _, _, _, _, _, chainId, _, _, _⟩
      obtain rfl : type' = type := htype
      obtain ⟨chainId, hchain⟩ := Option.isSome_iff_exists.mp hchain
      obtain rfl : _ = some chainId := hchain
      rfl
    · rintro rfl
      exact ⟨rfl, rfl, rfl, rfl, rfl, rfl, rfl, rfl, rfl, rfl, rfl, rfl, rfl, hfees⟩
  apply hread.congr
  intro tx p
  constructor
  · rintro ⟨⟨rfl, hchain, hfees⟩, hp⟩
    cases h : tx.type with
    | kLegacy => exact absurd h htype
    | _ => simp_all [Transaction.Normal, Transaction.fields]
  · rintro ⟨⟨rfl, hfees, hchain⟩, hp⟩
    cases h : tx.type with
    | kLegacy => exact absurd h htype
    | _ => simp_all [Transaction.fields]

theorem parses_readReceiptFields :
    Parses readReceiptFields fun receipt p => receipt.Normal ∧ Concat Field.Reads receipt.fields p := by
  unfold Receipt.fields
  refine parses_decodeStatusOrStateRoot.fields (fun receipt : Receipt => (receipt.stateRoot, receipt.status))
    (fun receipt h => h) fun outcome hone => ?_
  refine (parses_readNumber .uint256).field Receipt.cumulativeGasUsed fun cumulativeGasUsed => ?_
  refine (parses_readFixed 256).field Receipt.bloom fun bloom => ?_
  refine (parses_decodeLogEntryFromDecoder.exactListOf fun _ => trivial).field Receipt.logs fun logs => ?_
  refine Parses.done fun receipt => ⟨?_, ?_⟩
  · rintro ⟨rfl, rfl, rfl, rfl, -⟩
    rfl
  · rintro rfl
    exact ⟨rfl, rfl, rfl, rfl, hone⟩

theorem parses_readHeaderFields : Parses readHeaderFields fun header p =>
    header.baseFeePerGas = none ∧ Concat Field.Reads header.mainFields p := by
  unfold BlockHeader.mainFields
  refine (parses_readFixed 32).field BlockHeader.parentHash fun parentHash => ?_
  refine (parses_readFixed 32).field BlockHeader.ommersHash fun ommersHash => ?_
  refine (parses_readFixed 20).field BlockHeader.beneficiary fun beneficiary => ?_
  refine (parses_readFixed 32).field BlockHeader.stateRoot fun stateRoot => ?_
  refine (parses_readFixed 32).field BlockHeader.transactionsRoot fun transactionsRoot => ?_
  refine (parses_readFixed 32).field BlockHeader.receiptsRoot fun receiptsRoot => ?_
  refine (parses_readFixed 256).field BlockHeader.logsBloom fun logsBloom => ?_
  refine (parses_readNumber .uint256).field BlockHeader.difficulty fun difficulty => ?_
  refine (parses_readNumber .uint64).field BlockHeader.number fun number => ?_
  refine (parses_readNumber .uint64).field BlockHeader.gasLimit fun gasLimit => ?_
  refine (parses_readNumber .uint64).field BlockHeader.gasUsed fun gasUsed => ?_
  refine (parses_readNumber .uint64).field BlockHeader.timestamp fun timestamp => ?_
  refine parses_readData.field BlockHeader.extraData fun extraData => ?_
  refine (parses_readFixed 32).field BlockHeader.mixHash fun mixHash => ?_
  refine (parses_readFixed 8).field BlockHeader.nonce fun nonce => ?_
  refine Parses.done fun header => ⟨?_, ?_⟩
  · rintro ⟨rfl, rfl, rfl, rfl, rfl, rfl, rfl, rfl, rfl, rfl, rfl, rfl, rfl, rfl, rfl, hfee⟩
    cases header
    obtain rfl := hfee
    rfl
  · rintro rfl
    exact ⟨rfl, rfl, rfl, rfl, rfl, rfl, rfl, rfl, rfl, rfl, rfl, rfl, rfl, rfl, rfl, rfl⟩

end DevP2P.Eth
