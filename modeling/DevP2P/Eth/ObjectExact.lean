import DevP2P.Eth.ObjectCodec

/-!
# Which encodings are decoded exactly

A decoder accepts more than its encoder writes: zero as the byte `0x00`, a status as any byte, and items behind the last
field.

* `ItemForm` : what an item is read as; `ItemForm.Canonical` : it is none of the other forms that the read accepts;
* `ExactItems forms c` : the list `c` holds one item for each form and nothing else, and each item is canonical;
* `transactionLayout`, `receiptForms`, `headerForms` : the items of an object, from its bytes;
* `object_decoding_exact` : an object that was decoded from one complete item is encoded as that item again exactly when
  the item is of its layout;
* `entry_decoding_exact` : the decoders of log entries and access-list entries accept the encodings and nothing else.
-/

namespace DevP2P.Rlp
open DevP2P.Lib Stateful

/-- What an item of an object is read as: an integer, the status or the state root of a receipt, or a string or list. -/
inductive ItemForm
  | integer
  | outcome
  | other

/-- The item is none of the other forms that the read accepts. -/
def ItemForm.Canonical : ItemForm → Bytes → Prop
  | .integer, item => item ≠ [0]
  | .outcome, item => ∀ x, item = encodeString [x] → x = 1
  | .other, _ => True

/-- The list `c` holds one item for each form and nothing else, and each item is canonical. -/
def ExactItems (forms : List ItemForm) (c : Bytes) : Prop :=
  ∃ items : List Bytes, List.Forall₂ (fun form item => IsItem item ∧ form.Canonical item) forms items ∧
    items.flatten.length < kSizeModulus ∧ c = encodeList items.flatten

/-- An item that is read as the field is the one that the encoder writes exactly when it is canonical. -/
def Field.OfForm (f : Field) (form : ItemForm) : Prop := ∀ p, f.Reads p → (p = f.encoding ↔ form.Canonical p)

/-- A number is not written as the byte `0x00`. -/
theorem encodeString_beBytes_ne {n : Nat} (h : (beBytes n).length < kSizeModulus) : encodeString (beBytes n) ≠ [0] := by
  intro hzero
  have hs : beBytes n = [0] := encodeString_inj h (by decide) hzero
  by_cases h0 : n = 0
  · subst h0
    exact absurd hs (by decide)
  · have := at_beBytes_zero_ne h0
    rw [hs] at this
    exact this rfl

theorem ofForm_string (s : Bytes) : (Field.string s).OfForm .other := fun _ h => iff_of_true h.2 trivial

theorem ofForm_list (payload : Bytes) : (Field.list payload).OfForm .other := fun _ h => iff_of_true h.2 trivial

theorem ofForm_number (T : UIntTy) (n : T.Val) : (Field.number T n).OfForm .integer := by
  intro p h
  have hne := encodeString_beBytes_ne (Field.length_beBytes_lt n)
  rcases h with rfl | ⟨-, rfl⟩
  · exact iff_of_true rfl hne
  · exact iff_of_false (fun h => hne h.symm) (fun h => h rfl)

theorem length_singleton_lt (x : UInt8) : [x].length < kSizeModulus := by
  rw [List.length_singleton]
  decide

theorem ofForm_root {s : Bytes} (hs : s.length ≠ 1) : (Field.string s).OfForm .outcome := by
  intro p h
  refine iff_of_true h.2 fun x hx => absurd ?_ hs
  rw [encodeString_inj h.1 (length_singleton_lt x) (h.2.symm.trans hx), List.length_singleton]

theorem ofForm_status (b : Bool) : (Field.status b).OfForm .outcome := by
  intro p h
  have hcanonical (x : UInt8) : ItemForm.outcome.Canonical (encodeString [x]) ↔ x = 1 := by
    constructor
    · exact fun h => h x rfl
    · rintro rfl y hy
      simpa using (encodeString_inj (length_singleton_lt 1) (length_singleton_lt y) hy).symm
  rcases h with ⟨rfl, rfl⟩ | ⟨x, rfl, rfl⟩
  · refine iff_of_true (by decide) fun x hx => ?_
    simpa using encodeString_inj (by decide) (length_singleton_lt x) hx
  · rw [hcanonical]
    by_cases h0 : x = 0
    · subst h0
      exact iff_of_false (by decide) (by decide)
    · have hencoding : (Field.status (x != 0)).encoding = encodeString [1] := by
        rw [bne_iff_ne.mpr h0]
        rfl
      rw [hencoding]
      constructor
      · intro hx
        simpa using encodeString_inj (length_singleton_lt x) (length_singleton_lt 1) hx
      · rintro rfl
        rfl

theorem Field.Reads.length_encoding_le {f : Field} {p : Bytes} (h : f.Reads p) : f.encoding.length ≤ p.length := by
  have hone (b : Bool) : (encodeString (beBytes b.toNat)).length ≤ 1 := by cases b <;> decide
  have hpos := List.length_pos_iff.mpr h.isItem.ne_nil
  cases f with
  | string s => rw [h.2]; rfl
  | list payload => rw [h.2]; rfl
  | number T n =>
      rcases h with rfl | ⟨rfl, rfl⟩
      · rfl
      · simp [Field.encoding, show beBytes 0 = [] by decide, encodeString_nil]
  | flag b => exact (hone b).trans hpos
  | status b => exact (hone b).trans hpos

theorem length_encodeFields_le {fs : List Field} {p : Bytes} (h : Concat Field.Reads fs p) :
    (encodeFields fs).length ≤ p.length := by
  induction fs generalizing p with
  | nil => simp
  | cons f fs ih =>
      obtain ⟨q, r, hq, hr, rfl⟩ := concat_cons.mp h
      have := hq.length_encoding_le
      have := ih hr
      rw [encodeFields_cons, List.length_append, List.length_append]
      omega

section

variable {fs : List Field} {forms : List ItemForm}

theorem flatten_eq_encodeFields (hforms : List.Forall₂ Field.OfForm fs forms) {items : List Bytes}
    (hread : List.Forall₂ Field.Reads fs items)
    (hcanonical : List.Forall₂ (fun form item => IsItem item ∧ form.Canonical item) forms items) :
    items.flatten = encodeFields fs := by
  induction hforms generalizing items with
  | nil =>
      obtain rfl := List.forall₂_nil_left_iff.mp hread
      rfl
  | cons hform _ ih =>
      obtain ⟨item, items, h, hs, rfl⟩ := List.forall₂_cons_left_iff.mp hread
      obtain ⟨⟨-, hc⟩, hcs⟩ := List.forall₂_cons.mp hcanonical
      rw [List.flatten_cons, encodeFields_cons, ih hs hcs, (hform item h).mpr hc]

theorem canonical_encoding (hforms : List.Forall₂ Field.OfForm fs forms) (hsized : ∀ f ∈ fs, f.Sized) :
    List.Forall₂ (fun form item => IsItem item ∧ form.Canonical item) forms (fs.map Field.encoding) := by
  induction hforms with
  | nil => exact .nil
  | cons hform _ ih =>
      obtain ⟨hf, hfs⟩ := List.forall_mem_cons.mp hsized
      have henc := Field.reads_encoding hf
      exact .cons ⟨henc.isItem, (hform _ henc).mp rfl⟩ (ih hfs)

theorem encodeList_encodeFields_eq_iff (hforms : List.Forall₂ Field.OfForm fs forms) {p r : Bytes}
    (hread : Concat Field.Reads fs p) (hsize : (p ++ r).length < kSizeModulus) :
    encodeList (encodeFields fs) = encodeList (p ++ r) ↔ ExactItems forms (encodeList (p ++ r)) := by
  have hle := length_encodeFields_le hread
  have hfields : (encodeFields fs).length < kSizeModulus := by
    rw [List.length_append] at hsize
    omega
  obtain ⟨ps, hps, rfl⟩ := hread
  constructor
  · intro heq
    have hflat : (fs.map Field.encoding).flatten = encodeFields fs := List.flatMap_def.symm
    exact ⟨fs.map Field.encoding, canonical_encoding hforms (sized_of_length_encodeFields hfields), by rwa [hflat],
      by rw [hflat, heq]⟩
  · rintro ⟨items, hitems, hlt, heq⟩
    have hpayload := encodeList_inj hsize hlt heq
    -- both sequences have one item for each field
    have hlen : ps.length = items.length := hps.length_eq.symm.trans (hforms.length_eq.trans hitems.length_eq)
    rw [← List.append_nil items.flatten] at hpayload
    obtain ⟨rfl, rfl⟩ := isItem_prefixFree.flatten_append_inj (forall_mem_of_forall₂ hps fun _ _ h => h.isItem)
      (forall_mem_of_forall₂ hitems fun _ _ h => h.1) hlen hpayload
    rw [List.append_nil, flatten_eq_encodeFields hforms hps hitems]

theorem length_of_exactItems {p r : Bytes} (hread : Concat Field.Reads fs p) (hsize : (p ++ r).length < kSizeModulus)
    (hexact : ExactItems forms (encodeList (p ++ r))) :
    fs.length ≤ forms.length ∧ (r = [] → forms.length ≤ fs.length) := by
  obtain ⟨ps, hps, rfl⟩ := hread
  obtain ⟨items, hitems, hlt, heq⟩ := hexact
  have hpayload := encodeList_inj hsize hlt heq
  have hread := forall_mem_of_forall₂ hps fun _ _ h => h.isItem
  have hlist := forall_mem_of_forall₂ hitems fun _ _ h => h.1
  have hne (p : Bytes) (hp : IsItem p) := hp.ne_nil
  rw [hps.length_eq, hitems.length_eq]
  refine ⟨isItem_prefixFree.length_le_of_flatten hne hread hlist hpayload, ?_⟩
  rintro rfl
  exact isItem_prefixFree.length_le_of_flatten hne hlist hread (r := []) (by simpa using hpayload.symm)

end

end DevP2P.Rlp

namespace DevP2P.Eth
open DevP2P.Lib DevP2P.Rlp Stateful

/-- `b` is one list. -/
def IsList (b : Bytes) : Prop := ∃ payload : Bytes, payload.length < kSizeModulus ∧ b = encodeList payload

/-- `b` is one transaction as far as its form goes: a list, or a type byte and a list. -/
def IsTransactionItem (b : Bytes) : Prop :=
  IsList b ∨ ∃ (t : UInt8) (c : Bytes), t.toNat < kRlpListPrefixMin ∧ IsList c ∧ b = t :: c

/-- The items of a transaction: the chain id of a typed one, the nonce, the fees, the gas limit, the recipient, the
value, the data, the access list of a typed one, and the signature. -/
def transactionForms : TransactionType → List ItemForm
  | .kLegacy => [.integer, .integer, .integer, .other, .integer, .other, .integer, .integer, .integer]
  | .kAccessList =>
    [.integer, .integer, .integer, .integer, .other, .integer, .other, .other, .integer, .integer, .integer]
  | .kDynamicFee =>
    [.integer, .integer, .integer, .integer, .integer, .other, .integer, .other, .other, .integer, .integer, .integer]

/-- The type that the first byte of a transaction says, and the list: behind this byte if it is a type. -/
def transactionLayout (b : Bytes) : TransactionType × Bytes :=
  match typeOfByte (Bytes.at b 0) with
  | .ok type => (type, b.drop kTypedTxPrefixSize)
  | .error _ => (.kLegacy, b)

/-- The items of a receipt: the outcome, the gas, the bloom filter and the logs. -/
def receiptForms : List ItemForm := [.outcome, .integer, .other, .other]

/-- The items every block header has; the base fee is an integer behind them. -/
def headerForms : List ItemForm :=
  [.other, .other, .other, .other, .other, .other, .other, .integer, .integer, .integer, .integer, .integer,
    .other, .other,
    .other]

theorem ofForm_recipient (recipient : Option Address) : (recipientField recipient).OfForm .other := by
  cases recipient <;> exact ofForm_string _

theorem ofForm_transaction (tx : Transaction) : List.Forall₂ Field.OfForm tx.fields (transactionForms tx.type) := by
  unfold Transaction.fields
  cases tx.type <;>
    simp [Transaction.legacyFields, Transaction.typedFields, Fees.fields, transactionForms,
      accessListField, ofForm_string,
      ofForm_list, ofForm_number, ofForm_recipient]

theorem ofForm_receipt {receipt : Receipt} (h : receipt.Normal) :
    List.Forall₂ Field.OfForm receipt.fields receiptForms := by
  have houtcome : (Receipt.outcomeField (receipt.stateRoot, receipt.status)).OfForm .outcome := by
    unfold Receipt.Normal Receipt.OneOutcome at h
    cases hroot : receipt.stateRoot with
    | some root => exact ofForm_root (by rw [root.length_bytes]; decide)
    | none =>
        cases hstatus : receipt.status with
        | some status => exact ofForm_status status
        | none => simp [hroot, hstatus] at h
  simp [Receipt.fields, receiptForms, houtcome, ofForm_string, ofForm_list, ofForm_number]

theorem ofForm_blockHeader (header : BlockHeader) : List.Forall₂ Field.OfForm header.fields
    (headerForms ++ if header.baseFeePerGas = none then [] else [.integer]) := by
  cases hfee : header.baseFeePerGas <;>
    simp [BlockHeader.fields, BlockHeader.mainFields, BlockHeader.baseFeeFields, hfee, headerForms,
      ofForm_string, ofForm_number]

theorem transactionLayout_append {tx : Transaction} {c : Bytes} (hc : kRlpListPrefixMin ≤ (Bytes.at c 0).toNat) :
    transactionLayout (tx.typeBytes ++ c) = (tx.type, c) := by
  unfold transactionLayout Transaction.typeBytes
  cases htype : tx.type with
  | kLegacy =>
      rw [List.nil_append]
      cases hbyte : typeOfByte (Bytes.at c 0) with
      | ok type =>
          rw [(typeOfByte_eq_ok_iff.mp hbyte).2] at hc
          cases type <;> exact absurd hc (by decide)
      | error _ => rfl
  | _ => rfl

theorem payload_of_opens {n : Nat} {p r b : Bytes} (hb : IsList b) (h : Opens n p r b) :
    b = encodeList (p ++ r) ∧ (p ++ r).length < kSizeModulus := by
  obtain ⟨payload, hlt, rfl⟩ := hb
  rw [← List.append_nil (encodeList payload)] at h
  obtain ⟨-, heq⟩ := eq_of_opens hlt h
  rw [List.append_nil] at heq
  subst heq
  exact ⟨rfl, hlt⟩

theorem IsList.first {b : Bytes} (h : IsList b) : kRlpListPrefixMin ≤ (Bytes.at b 0).toNat := by
  obtain ⟨payload, hlt, rfl⟩ := h
  exact first_of_opens (opens_encodeList hlt)

theorem transaction_decoding_exact {b : Bytes} (hb : IsTransactionItem b) {tx : Transaction}
    (hdecode : decodeTransaction b = .ok tx) :
    encodeTransaction tx = .ok b ↔ ExactItems (transactionForms (transactionLayout b).1) (transactionLayout b).2 := by
  obtain ⟨⟨r⟩, hread⟩ := outcome_eq_ok.mp hdecode
  obtain ⟨-, n, p, c, rfl, hopens, hp⟩ := readTransaction_eq_ok_iff.mp hread
  have hc : IsList c := by
    unfold Transaction.typeBytes at hb
    cases htype : tx.type with
    | kLegacy =>
        simp only [htype, List.nil_append] at hb
        rcases hb with hlist | ⟨t, c', ht, -, rfl⟩
        · exact hlist
        · exact absurd ht (not_lt.mpr (first_of_opens hopens))
    | _ =>
        simp only [htype, List.singleton_append] at hb
        rcases hb with hlist | ⟨t, c', -, hlist, heq⟩
        · exact absurd hlist.first (by rw [Bytes.at_cons_zero]; decide)
        · rwa [(List.cons.inj heq).2]
  rw [transactionLayout_append (first_of_opens hopens)]
  obtain ⟨rfl, hsize⟩ := payload_of_opens hc hopens
  have hfields := length_encodeFields_le hp
  rw [encodeTransaction_eq (by rw [List.length_append] at hsize; omega), Except.ok.injEq, Transaction.encoding,
    List.append_cancel_left_eq, encodeList_encodeFields_eq_iff (ofForm_transaction tx) hp hsize]

theorem receipt_decoding_exact {b : Bytes} (hb : IsList b) {receipt : Receipt}
    (hdecode : decodeReceipt b = .ok receipt) :
    encodeReceipt receipt = .ok b ↔ ExactItems receiptForms b := by
  obtain ⟨⟨r⟩, hread⟩ := outcome_eq_ok.mp hdecode
  obtain ⟨hnormal, n, p, hopens, hp⟩ := readReceipt_eq_ok_iff.mp hread
  obtain ⟨rfl, hsize⟩ := payload_of_opens hb hopens
  have hfields := length_encodeFields_le hp
  rw [encodeReceipt_eq hnormal (by rw [List.length_append] at hsize; omega), Except.ok.injEq, Receipt.encoding,
    encodeList_encodeFields_eq_iff (ofForm_receipt hnormal) hp hsize]

theorem blockHeader_decoding_exact {b : Bytes} (hb : IsList b) {header : BlockHeader}
    (hdecode : decodeBlockHeader b = .ok header) :
    encodeBlockHeader header = .ok b ↔ ExactItems headerForms b ∨ ExactItems (headerForms ++ [.integer]) b := by
  obtain ⟨⟨r⟩, hread⟩ := outcome_eq_ok.mp hdecode
  obtain ⟨hfee, n, p, hopens, hp⟩ := readBlockHeader_eq_ok_iff.mp hread
  obtain ⟨rfl, hsize⟩ := payload_of_opens hb hopens
  have hfields := length_encodeFields_le hp
  have hforms := ofForm_blockHeader header
  rw [encodeBlockHeader_eq (by rw [List.length_append] at hsize; omega), Except.ok.injEq, BlockHeader.encoding,
    encodeList_encodeFields_eq_iff hforms hp hsize]
  by_cases hnone : header.baseFeePerGas = none
  · -- without a base fee the fields are the whole list
    rw [if_pos hnone, List.append_nil] at hforms ⊢
    refine ⟨.inl, fun h => h.resolve_right fun hlong => ?_⟩
    have := (length_of_exactItems hp hsize hlong).2 (hfee hnone)
    rw [hforms.length_eq] at this
    exact absurd this (by decide)
  · rw [if_neg hnone] at hforms ⊢
    refine ⟨.inr, fun h => h.resolve_left fun hshort => ?_⟩
    have := (length_of_exactItems hp hsize hshort).1
    rw [hforms.length_eq] at this
    exact absurd this (by decide)

/-- A fact about whatever is decoded, that does not depend on it. -/
theorem forall_ok_iff {α : Type} {x : DecodeResult α} {P : α → Prop} {C : Prop} (h : ∀ v, x = .ok v → (P v ↔ C)) :
    (∀ v, x = .ok v → P v) ↔ ((∃ v, x = .ok v) → C) := by
  refine ⟨?_, fun hC v hv => (h v hv).mpr (hC ⟨v, hv⟩)⟩
  rintro hall ⟨v, hv⟩
  exact (h v hv).mp (hall v hv)

/-- **Which objects are decoded exactly.** Whatever is decoded from one complete item is encoded as that item again,
exactly when the list holds one item for each field of the object and nothing else, no integer is the byte `0x00`, and a
status is empty or the byte `0x01`. -/
theorem object_decoding_exact (b : Bytes) :
    (IsTransactionItem b →
      ((∀ tx, decodeTransaction b = .ok tx → encodeTransaction tx = .ok b) ↔
        ((∃ tx, decodeTransaction b = .ok tx) →
          ExactItems (transactionForms (transactionLayout b).1) (transactionLayout b).2))) ∧
    (IsList b →
      ((∀ receipt, decodeReceipt b = .ok receipt → encodeReceipt receipt = .ok b) ↔
        ((∃ receipt, decodeReceipt b = .ok receipt) → ExactItems receiptForms b))) ∧
    (IsList b →
      ((∀ header, decodeBlockHeader b = .ok header → encodeBlockHeader header = .ok b) ↔
        ((∃ header, decodeBlockHeader b = .ok header) →
          ExactItems headerForms b ∨ ExactItems (headerForms ++ [.integer]) b))) := by
  refine ⟨fun hb => ?_, fun hb => ?_, fun hb => ?_⟩
  · exact forall_ok_iff fun tx hdecode => transaction_decoding_exact hb hdecode
  · exact forall_ok_iff fun receipt hdecode => receipt_decoding_exact hb hdecode
  · exact forall_ok_iff fun header hdecode => blockHeader_decoding_exact hb hdecode

/-- The bytes of a transaction are a form that is decoded exactly. -/
theorem object_decoding_exact_fee : IsTransactionItem feeTransaction.normalised.encoding ∧
    decodeTransaction feeTransaction.normalised.encoding = .ok feeTransaction.normalised ∧
      ExactItems (transactionForms .kDynamicFee) (feeTransaction.normalised.encoding.drop 1) := by
  have hsize : (encodeFields feeTransaction.normalised.fields).length < kSizeModulus := by decide
  have hitem : IsTransactionItem feeTransaction.normalised.encoding :=
    .inr ⟨0x02, _, by decide, ⟨_, hsize, rfl⟩, rfl⟩
  have hdecode := decodeTransaction_encoding feeTransaction.normal_normalised hsize
  refine ⟨hitem, hdecode, ((object_decoding_exact _).1 hitem).mp ?_ ⟨_, hdecode⟩⟩
  intro tx htx
  rw [← Except.ok.inj (hdecode.symm.trans htx)]
  exact encodeTransaction_eq hsize

/-- A transaction with the nonce zero, once written as the source writes it and once with the byte `0x00`. -/
def zeroNonce (nonce : UInt8) : Bytes := [0xC9, nonce, 0x80, 0x80, 0x80, 0x80, 0x80, 0x80, 0x80, 0x80]

/-- Two different items are decoded as one transaction, which is encoded as only one of them. -/
theorem zero_byte_nonce_is_accepted : IsTransactionItem (zeroNonce 0x00) ∧
    ∃ tx, decodeTransaction (zeroNonce 0x00) = .ok tx ∧ decodeTransaction (zeroNonce 0x80) = .ok tx ∧
      encodeTransaction tx = .ok (zeroNonce 0x80) ∧ encodeTransaction tx ≠ .ok (zeroNonce 0x00) :=
  ⟨.inl ⟨[0x00, 0x80, 0x80, 0x80, 0x80, 0x80, 0x80, 0x80, 0x80], by decide, by decide⟩,
    ⟨.kLegacy, 0, 0, none, 0, [], some 0, none, none, [], none, 0, 0, 0⟩, by decide, by decide, by decide, by decide⟩

/-! ## Log entries and access-list entries -/

section

variable {x : EncodeM Unit} {p : Bytes}

theorem emits_listOf (hx : Emits x p) : Emits (listOf x) (Field.list p).encoding := by
  intro buf starts e h
  obtain ⟨⟨⟩, t, hbegin, h⟩ := bind_eq_ok.mp h
  rw [withError_eq_ok, beginList_run] at hbegin
  cases hbegin
  obtain ⟨⟨⟩, t, hbody, hend⟩ := bind_eq_ok.mp h
  obtain ⟨payload, rfl, hpayload⟩ := hx _ _ t hbody
  exact Emits.endList hpayload (withError_eq_ok.mp hend)

theorem eq_of_finalizeEncoding (hx : Emits x p) {out : Bytes} (h : finalizeEncoding x = .ok out)
    (hlt : out.length < kSizeModulus) :
    out = p := by
  obtain ⟨e, hrun⟩ := outcome_eq_ok.mp h
  obtain ⟨⟨⟩, t, hbody, hget⟩ := bind_eq_ok.mp hrun
  obtain ⟨q, rfl, hq⟩ := hx [] [] t hbody
  rw [List.nil_append, getBytes_run] at hget
  cases hget
  exact hq hlt

end

theorem emits_hashList (hashes : List Hash256) : Emits (encodeHashList hashes) (hashListField hashes).encoding := by
  apply emits_listOf
  have heach := Appends.each hashes fun hash _ => writes_fixed hash (by decide)
  rw [encodeFields, List.flatMap_map]
  exact .ofAppends heach

theorem emits_logEntry (entry : LogEntry) : Emits (addLogEntry entry) entry.field.encoding := by
  apply emits_listOf
  unfold LogEntry.fields
  rw [encodeFields_cons, encodeFields_cons, encodeFields_singleton]
  exact (Emits.ofAppends (writes_fixed entry.address (by decide))).seq
    ((emits_hashList entry.topics).seq ((Emits.bytes entry.data).withError _))

theorem emits_accessListEntry (entry : AccessListEntry) : Emits (addAccessListEntry entry) entry.field.encoding := by
  apply emits_listOf
  unfold AccessListEntry.fields
  rw [encodeFields_cons, encodeFields_singleton]
  exact (Emits.ofAppends (writes_fixed entry.address (by decide))).seq (emits_hashList entry.storageKeys)

theorem list_decoding_exact {α : Type} {read : DecodeM α} {write : α → EncodeM Unit} {payload : α → Bytes}
    (hread : Parses read fun a => (Field.list (payload a)).Reads)
    (hwrite : ∀ a, (Field.list (payload a)).Sized → Appends (write a) (Field.list (payload a)).encoding)
    (hemits : ∀ a, Emits (write a) (Field.list (payload a)).encoding) {b : Bytes}
    (hb : b.length < kSizeModulus) (a : α) :
    Stateful.outcome (read ⟨b⟩) = .ok a ↔ ∃ out, finalizeEncoding (write a) = .ok out ∧ out <+: b := by
  rw [outcome_eq_ok]
  constructor
  · rintro ⟨⟨r⟩, h⟩
    obtain ⟨p, ⟨hsized, rfl⟩, rfl⟩ := (hread _ _ _).mp h
    exact ⟨_, finalizeEncoding_eq (hwrite a hsized), List.prefix_append _ _⟩
  · rintro ⟨out, hout, r, rfl⟩
    have hlt : out.length < kSizeModulus := by
      rw [List.length_append] at hb
      omega
    obtain rfl := eq_of_finalizeEncoding (hemits a) hout hlt
    exact ⟨⟨r⟩, hread.run (Field.reads_encoding (Field.sized_of_length hlt)) r⟩

/-- **Log entries and access-list entries are decoded exactly.** From a byte string an entry is decoded exactly when
what its encoder writes is a start of the byte string. -/
theorem entry_decoding_exact (b : Bytes) (hb : b.length < 2 ^ 64) :
    (∀ entry : LogEntry, decodeLogEntry b = .ok entry ↔ ∃ out, encodeLogEntry entry = .ok out ∧ out <+: b) ∧
      ∀ entry : AccessListEntry, decodeAccessListEntry b = .ok entry ↔
        ∃ out, encodeAccessListEntry entry = .ok out ∧ out <+: b :=
  ⟨list_decoding_exact parses_decodeLogEntryFromDecoder (fun _ => writes_logEntry) emits_logEntry hb,
    list_decoding_exact parses_decodeAccessListEntryFromDecoder (fun _ => writes_accessListEntry)
    emits_accessListEntry hb⟩

/-- A log entry with one topic and two bytes of data, and one byte behind it. -/
theorem entry_decoding_exact_log : ∃ out, encodeLogEntry ⟨.zero 20, [.zero 32], [7, 8]⟩ = .ok out ∧
    decodeLogEntry (out ++ [5]) = .ok ⟨.zero 20, [.zero 32], [7, 8]⟩ :=
  ⟨_, rfl, ((entry_decoding_exact _ (by decide)).1 _).mpr ⟨_, rfl, List.prefix_append _ _⟩⟩

end DevP2P.Eth
