import DevP2P.Eth.Messages
import DevP2P.Eth.ObjectCodec

/-!
# Encoders and decoders of the payloads

* `Codes call G f V` : the calls write `f a`, and a read that accepts `G` accepts it, for every `a` with `V a` whose
  encoding has a size; `Codes.listOf` : then also for lists;
* `codes_headers`, `codes_receipts`, `codes_pooled`, `codes_bodies` : the payloads of the messages;
* `encodeEnvelope_eq`, `decodeEnvelope_envelope_iff` : a request id in front of a payload;
* `decodeEnvelope_none` : what is decoded without a request id.
-/

namespace DevP2P.Eth
open DevP2P.Lib DevP2P.Rlp Stateful

variable {α μ : Type}

/-- The calls write `f a`, and `f a` is accepted for `a`. -/
def Codes (call : α → EncodeM Unit) (G : α → Bytes → Prop) (f : α → Bytes) (V : α → Prop) : Prop :=
  ∀ a, V a → (f a).length < kSizeModulus → Appends (call a) (f a) ∧ G a (f a)

theorem Codes.listOf {call : α → EncodeM Unit} {G : α → Bytes → Prop} {f : α → Bytes} {V : α → Prop}
    (h : Codes call G f V) :
    Codes (fun as => Eth.listOf (as.forM call)) (ListOf G) (fun as => encodeList (as.flatMap f))
      (fun as => ∀ a ∈ as, V a) := by
  intro as hV hsize
  have hpayload := lt_of_le_of_lt (length_le_encodeList _) hsize
  have hitem (a : α) (ha : a ∈ as) := h a (hV a ha) (lt_of_le_of_lt (length_le_flatMap ha) hpayload)
  refine ⟨appends_listOf (Appends.each as fun a ha => (hitem a ha).1) hpayload, _, ?_, hpayload, rfl⟩
  apply Concat.mono (concat_eq_iff.mpr rfl)
  intro a ha q hq
  rw [hq]
  exact (hitem a ha).2

/-! ## Objects on their own -/

theorem appends_addEncoded {encoded : EncodeResult} {p : Bytes} (h : encoded = .ok p) (hp : p ≠ []) :
    Appends (addEncoded encoded) p := by
  intro buf starts
  unfold addEncoded
  rw [h, bind_of_ok (lift_ok _ _)]
  exact (Appends.raw hp).withError _ buf starts

/-- What `readDecoded` accepts. -/
def DecodedItem (decode : ByteView → DecodeResult α) (a : α) (p : Bytes) : Prop := IsItem p ∧ decode p = .ok a

theorem parses_readDecoded (decode : ByteView → DecodeResult α) : Parses (readDecoded decode) (DecodedItem decode) := by
  apply Parses.item.lift.congr
  intro a p
  constructor
  · rintro ⟨item, ⟨rfl, hitem⟩, hdecode⟩
    exact ⟨hitem, hdecode⟩
  · rintro ⟨hitem, hdecode⟩
    exact ⟨p, ⟨rfl, hitem⟩, hdecode⟩

theorem DecodedItem.ne_nil {decode : ByteView → DecodeResult α} {a : α} {p : Bytes} (h : DecodedItem decode a p) :
    p ≠ [] :=
  h.1.ne_nil

theorem codes_blockHeader : Codes (fun header => addEncoded (encodeBlockHeader header)) (DecodedItem decodeBlockHeader)
    BlockHeader.encoding fun _ => True := by
  intro header _ hsize
  have hpayload := lt_of_le_of_lt (length_le_encodeList _) hsize
  exact ⟨appends_addEncoded (encodeBlockHeader_eq hpayload) (encodeList_ne_nil _), isItem_encodeList hpayload,
    decodeBlockHeader_encoding hpayload⟩

theorem codes_receipt : Codes (fun receipt => addEncoded (encodeReceipt receipt)) (DecodedItem decodeReceipt)
    Receipt.encoding Receipt.Normal := by
  intro receipt hnormal hsize
  have hpayload := lt_of_le_of_lt (length_le_encodeList _) hsize
  exact ⟨appends_addEncoded (encodeReceipt_eq hnormal hpayload) (encodeList_ne_nil _), isItem_encodeList hpayload,
    decodeReceipt_encoding hnormal hpayload⟩

/-! ## Payloads -/

def headersEncoding (headers : List BlockHeader) : Bytes := encodeList (headers.flatMap BlockHeader.encoding)

theorem parses_decodeBlockHeadersPayload : Parses decodeBlockHeadersPayload (ListOf (DecodedItem decodeBlockHeader)) :=
  (parses_readDecoded _).listOf fun _ _ h => h.ne_nil

theorem codes_headers : Codes encodeBlockHeadersPayload (ListOf (DecodedItem decodeBlockHeader)) headersEncoding
    fun _ => True :=
  fun headers _ => codes_blockHeader.listOf headers fun _ _ => trivial

def receiptsEncoding (receipts : List (List Receipt)) : Bytes :=
  encodeList (receipts.flatMap fun blockReceipts => encodeList (blockReceipts.flatMap Receipt.encoding))

theorem ListOf.ne_nil {G : α → Bytes → Prop} {vs : List α} {p : Bytes} (h : ListOf G vs p) : p ≠ [] := by
  obtain ⟨q, -, -, rfl⟩ := h
  exact encodeList_ne_nil q

theorem parses_decodeReceiptsPayload : Parses decodeReceiptsPayload (ListOf (ListOf (DecodedItem decodeReceipt))) :=
  ((parses_readDecoded _).listOf fun _ _ h => h.ne_nil).listOf fun _ _ h => ListOf.ne_nil h

theorem codes_receipts : Codes encodeReceiptsPayload (ListOf (ListOf (DecodedItem decodeReceipt))) receiptsEncoding
    fun receipts => ∀ blockReceipts ∈ receipts, ∀ receipt ∈ blockReceipts, receipt.Normal :=
  codes_receipt.listOf.listOf

def pooledEncoding (encodedTransactions : List ByteBuffer) : Bytes := encodeList (encodedTransactions.flatMap id)

theorem parses_decodePooledTransactionsPayload :
    Parses decodePooledTransactionsPayload (ListOf fun v p => v = p ∧ IsItem p) :=
  Parses.item.listOf fun _ _ h => h.2.ne_nil

theorem codes_pooled : Codes encodePooledTransactionsPayload (ListOf fun v p => v = p ∧ IsItem p) pooledEncoding
    fun encodedTransactions => ∀ encodedTx ∈ encodedTransactions, IsItem encodedTx := by
  have hitem : Codes (fun encodedTx => add (addRaw encodedTx)) (fun v p => v = p ∧ IsItem p) id IsItem :=
    fun encodedTx hitem _ => ⟨(Appends.raw hitem.ne_nil).withError _, rfl, hitem⟩
  exact hitem.listOf

def Transaction.listed (tx : Transaction) : Bytes :=
  match tx.type with
  | .kLegacy => tx.encoding
  | _ => encodeString tx.encoding

def transactionsEncoding (txs : List Transaction) : Bytes := encodeList (txs.flatMap Transaction.listed)

/-- What the loop over the transactions accepts: the bytes of one as a string, or one as a list. -/
def ListedItem (tx : Transaction) (p : Bytes) : Prop :=
  (∃ s : Bytes, s ≠ [] ∧ s.length < kSizeModulus ∧ p = encodeString s ∧ decodeTransaction s = .ok tx) ∨
    ∃ q : Bytes, q.length < kSizeModulus ∧ p = encodeList q ∧ decodeTransaction p = .ok tx

theorem canonicalHeader_encodeList {q : Bytes} (hq : q.length < kSizeModulus) (r : Bytes) :
    ∃ h, CanonicalHeader (encodeList q ++ r) h (q ++ r) ∧ h.list = true := by
  rw [encodeList, List.append_assoc]
  exact ⟨_, .header hq (by simp) (by simp), rfl⟩

theorem parses_readListedTransaction : Parses readListedTransaction ListedItem := by
  intro b tx r
  unfold readListedTransaction
  rw [get_bind, peekHeader_bind_eq_ok]
  constructor
  · rintro ⟨h, w, hc, hok⟩
    by_cases hstring : ¬ h.list ∧ h.payloadSizeBytes > 0
    · rw [if_pos hstring] at hok
      obtain ⟨p, ⟨s, ⟨hs, rfl⟩, hdecode⟩, rfl⟩ := (parses_readData.lift _ _ _).mp hok
      have hne : s ≠ [] := by
        rintro rfl
        rw [(hc.of_encodeString hs).2] at hstring
        exact absurd hstring.2 (lt_irrefl 0)
      exact ⟨_, .inl ⟨s, hne, hs, rfl, hdecode⟩, rfl⟩
    · rw [if_neg hstring] at hok
      obtain ⟨p, ⟨hitem, hdecode⟩, rfl⟩ := (parses_readDecoded decodeTransaction _ _ _).mp hok
      rcases hitem with ⟨s, hs, rfl⟩ | ⟨q, hq, rfl⟩
      · -- only the empty string comes here, and it is no transaction
        obtain ⟨hl, hsize⟩ := hc.of_encodeString hs
        obtain rfl : s = [] := by
          by_contra hne
          exact hstring ⟨by simp [hl], by rw [hsize]; exact List.length_pos_iff.mpr hne⟩
        have hfail : decodeTransaction (encodeString []) = .error .kUnexpectedString := by decide
        rw [hfail] at hdecode
        cases hdecode
      · exact ⟨_, .inr ⟨q, hq, rfl, hdecode⟩, rfl⟩
  · rintro ⟨p, ⟨s, hne, hs, rfl, hdecode⟩ | ⟨q, hq, rfl, hdecode⟩, rfl⟩
    · obtain ⟨h, hc, hl, hsize⟩ := canonicalHeader_encodeString hs r
      refine ⟨h, _, hc, ?_⟩
      rw [if_pos ⟨by simp [hl], by rw [hsize]; exact List.length_pos_iff.mpr hne⟩]
      exact parses_readData.lift.run ⟨s, ⟨hs, rfl⟩, hdecode⟩ r
    · obtain ⟨h, hc, hl⟩ := canonicalHeader_encodeList hq r
      refine ⟨h, _, hc, ?_⟩
      rw [if_neg (fun hstring => hstring.1 hl)]
      exact (parses_readDecoded decodeTransaction).run ⟨isItem_encodeList hq, hdecode⟩ r

theorem ListedItem.ne_nil {tx : Transaction} {p : Bytes} (h : ListedItem tx p) : p ≠ [] := by
  rcases h with ⟨s, -, -, rfl, -⟩ | ⟨q, -, rfl, -⟩
  · exact encodeString_ne_nil s
  · exact encodeList_ne_nil q

theorem parses_decodeTransactionList : Parses decodeTransactionList (ListOf ListedItem) :=
  parses_readListedTransaction.listOf fun _ _ h => h.ne_nil

theorem codes_transaction : Codes addTransaction ListedItem Transaction.listed Transaction.Normal := by
  intro tx hnormal hsize
  have hlen : tx.encoding.length ≤ tx.listed.length := by
    unfold Transaction.listed
    cases tx.type with
    | kLegacy => rfl
    | _ => exact length_le_encodeString _
  have hfields := lt_of_le_of_lt (tx.length_encodeFields_le.trans hlen) hsize
  have hencode := encodeTransaction_eq hfields
  have hdecode := decodeTransaction_encoding hnormal hfields
  by_cases htype : tx.type = .kLegacy
  · have henc : tx.encoding = encodeList (encodeFields tx.fields) := by
      simp [Transaction.encoding, Transaction.typeBytes, htype]
    have hlisted : tx.listed = tx.encoding := by simp [Transaction.listed, htype]
    rw [hlisted]
    refine ⟨?_, .inr ⟨_, hfields, henc, hdecode⟩⟩
    intro buf starts
    unfold addTransaction
    rw [hencode, bind_of_ok (lift_ok _ _), if_pos htype]
    exact (Appends.raw (by rw [henc]; exact encodeList_ne_nil _)).withError _ buf starts
  · have hlisted : tx.listed = encodeString tx.encoding := by
      unfold Transaction.listed
      cases h : tx.type with
      | kLegacy => exact absurd h htype
      | _ => rfl
    have hne : tx.encoding ≠ [] := by
      intro hnil
      exact encodeList_ne_nil _ (List.append_eq_nil_iff.mp hnil).2
    have hs := lt_of_le_of_lt hlen hsize
    rw [hlisted]
    refine ⟨?_, .inl ⟨_, hne, hs, rfl, hdecode⟩⟩
    intro buf starts
    unfold addTransaction
    rw [hencode, bind_of_ok (lift_ok _ _), if_neg htype]
    exact (Appends.bytes hs).withError _ buf starts

theorem codes_transactions : Codes encodeTransactionList (ListOf ListedItem) transactionsEncoding
    fun txs => ∀ tx ∈ txs, tx.Normal :=
  codes_transaction.listOf

def BlockBody.encoding (body : BlockBody) : Bytes :=
  encodeList (transactionsEncoding body.transactions ++ headersEncoding body.ommers)

/-- What the decoder of a block body accepts. -/
def BodyItem (body : BlockBody) (p : Bytes) : Prop :=
  ∃ q₁ q₂, ListOf ListedItem body.transactions q₁ ∧ ListOf (DecodedItem decodeBlockHeader) body.ommers q₂ ∧
    (q₁ ++ q₂).length < kSizeModulus ∧ p = encodeList (q₁ ++ q₂)

theorem parses_decodeBlockBody : Parses decodeBlockBody BodyItem := by
  have hbody := parses_decodeTransactionList.bind fun transactions _ _ =>
    parses_decodeBlockHeadersPayload.map fun ommers => BlockBody.mk transactions ommers
  apply hbody.list.congr
  intro body p
  constructor
  · rintro ⟨q, ⟨transactions, q₁, q₂, h₁, ⟨ommers, h₂, rfl⟩, rfl⟩, hsize, rfl⟩
    exact ⟨q₁, q₂, h₁, h₂, hsize, rfl⟩
  · rintro ⟨q₁, q₂, h₁, h₂, hsize, rfl⟩
    exact ⟨_, ⟨_, q₁, q₂, h₁, ⟨_, h₂, rfl⟩, rfl⟩, hsize, rfl⟩

theorem codes_body : Codes encodeBlockBody BodyItem BlockBody.encoding fun body =>
    ∀ tx ∈ body.transactions, tx.Normal := by
  intro body hnormal hsize
  have hpayload := lt_of_le_of_lt (length_le_encodeList _) hsize
  have hparts := hpayload
  rw [List.length_append] at hparts
  obtain ⟨hwrite, hread⟩ := codes_transactions body.transactions hnormal (by omega)
  obtain ⟨hwrite', hread'⟩ := codes_headers body.ommers trivial (by omega)
  exact ⟨appends_listOf (hwrite.seq hwrite') hpayload, _, _, hread, hread', hpayload, rfl⟩

def bodiesEncoding (bodies : List BlockBody) : Bytes := encodeList (bodies.flatMap BlockBody.encoding)

theorem parses_decodeBodies : Parses (readListOf decodeBlockBody) (ListOf BodyItem) := by
  apply parses_decodeBlockBody.listOf
  rintro body p ⟨q₁, q₂, -, -, -, rfl⟩
  exact encodeList_ne_nil _

theorem codes_bodies : Codes (fun bodies => listOf (bodies.forM encodeBlockBody)) (ListOf BodyItem) bodiesEncoding
    fun bodies => ∀ body ∈ bodies, ∀ tx ∈ body.transactions, tx.Normal :=
  codes_body.listOf

/-! ## Envelopes -/

/-- The payload, in a list behind the request id if there is one. -/
def envelope (requestId : Option Uint64) (payload : Bytes) : Bytes :=
  match requestId with
  | some id => encodeList ((Field.number .uint64 id).encoding ++ payload)
  | none => payload

theorem encodeEnvelope_eq {requestId : Option Uint64} {x : EncodeM Unit} {p : Bytes} (hx : Appends x p)
    (hsize : (envelope requestId p).length < kSizeModulus) :
    encodeEnvelope requestId x = .ok (envelope requestId p) := by
  unfold encodeEnvelope
  apply finalizeEncoding_eq
  cases requestId with
  | none => exact hx
  | some id => exact appends_listOf ((writes_number id).seq hx) (lt_of_le_of_lt (length_le_encodeList _) hsize)

theorem encodeString_of_number {n : Uint64} {p : Bytes} (hp : (Field.number .uint64 n).Reads p) :
    ∃ s : Bytes, s.length ≤ 8 ∧ p = encodeString s := by
  rcases hp with rfl | ⟨-, rfl⟩
  · refine ⟨_, ?_, rfl⟩
    rw [length_beBytes]
    exact (byteLength_le_iff _ _).mpr (UIntTy.val_lt n)
  · exact ⟨[0], by decide, rfl⟩

theorem consumeEth66RequestId_run {id : Uint64} {p r w : Bytes} {h : Header} (hp : (Field.number .uint64 id).Reads p)
    (hc : CanonicalHeader r h w) (hl : h.list = true) : consumeEth66RequestId ⟨p ++ r⟩ = .ok (some id) ⟨r⟩ := by
  have hread := (Parses.uint .uint64).run hp r
  have hpeek := peekHeader_eq_ok_iff.mpr ⟨w, hc⟩
  unfold consumeEth66RequestId RlpDecoder.remaining
  simp only [hread, hpeek, hl, if_true]

theorem eq_of_consumeEth66RequestId_none {b : Bytes} {d : RlpDecoder} (h : consumeEth66RequestId ⟨b⟩ = .ok none d) :
    d = ⟨b⟩ := by
  unfold consumeEth66RequestId RlpDecoder.remaining at h
  cases hread : readUInt .uint64 ⟨b⟩ with
  | error e d' =>
      simp only [hread, EStateM.Result.ok.injEq] at h
      exact h.2.symm
  | ok id probe =>
      cases hpeek : probe.peekHeader with
      | error e =>
          simp only [hread, hpeek, EStateM.Result.ok.injEq] at h
          exact h.2.symm
      | ok header =>
          by_cases hl : header.list = true
          · simp [hread, hpeek, hl] at h
          · simp only [hread, hpeek, if_neg hl, EStateM.Result.ok.injEq] at h
            exact h.2.symm

theorem expectFinished_eq_ok_iff {b : Bytes} {d : RlpDecoder} :
    expectFinished ⟨b⟩ = .ok () d ↔ b = [] ∧ d = ⟨b⟩ := by
  unfold expectFinished
  rw [get_bind, rejectIf_eq_ok]
  simp [RlpDecoder.isFinished]

theorem decodeEnvelope_envelope_iff {x : DecodeM α} {G : α → Bytes → Prop} (hx : Parses x G) {id : Uint64}
    {v : α} {q : Bytes}
    (hsize : (envelope (some id) (encodeList q)).length < kSizeModulus) :
    decodeEnvelope x (envelope (some id) (encodeList q)) = .ok (some id, v) ↔ G v (encodeList q) := by
  have hpayload := lt_of_le_of_lt (length_le_encodeList _) hsize
  have hq : q.length < kSizeModulus := by
    have := length_le_encodeList q
    rw [List.length_append] at hpayload
    omega
  obtain ⟨h, hc, hl⟩ := canonicalHeader_encodeList hq []
  rw [List.append_nil] at hc
  have hnumber : (Field.number .uint64 id).Reads _ := Field.reads_encoding trivial
  have hid := consumeEth66RequestId_run hnumber hc hl
  unfold decodeEnvelope
  rw [envelope, bind_of_ok (readListHeaderBytes_encodeList hpayload), bind_of_ok hid]
  refine ⟨?_, ?_⟩
  · intro hok
    obtain ⟨d, hok⟩ := outcome_eq_ok.mp hok
    obtain ⟨content, ⟨r⟩, hread, hok⟩ := bind_eq_ok.mp hok
    obtain ⟨⟨⟩, _, hend, hok⟩ := bind_eq_ok.mp hok
    obtain ⟨rfl, -⟩ := expectFinished_eq_ok_iff.mp hend
    obtain ⟨hv, -⟩ := pure_eq_ok.mp hok
    obtain ⟨-, rfl⟩ := Prod.mk.inj hv
    obtain ⟨p, hp, heq⟩ := (hx _ _ _).mp hread
    rwa [heq, List.append_nil]
  · intro hG
    have hrun := hx.run hG []
    rw [List.append_nil] at hrun
    rw [bind_of_ok hrun, bind_of_ok (expectFinished_eq_ok_iff.mpr ⟨rfl, rfl⟩)]
    rfl

theorem decodeEnvelope_none {x : DecodeM α} {G : α → Bytes → Prop} (hx : Parses x G) {v : α} {q : Bytes}
    (hq : q.length < kSizeModulus) (h : decodeEnvelope x (encodeList q) = .ok (none, v)) : G v q := by
  obtain ⟨d, hrun⟩ := outcome_eq_ok.mp h
  rw [bind_of_ok (readListHeaderBytes_encodeList hq)] at hrun
  obtain ⟨requestId, d₁, hid, hrun⟩ := bind_eq_ok.mp hrun
  obtain ⟨content, ⟨r⟩, hread, hrun⟩ := bind_eq_ok.mp hrun
  obtain ⟨⟨⟩, d₂, hend, hrun⟩ := bind_eq_ok.mp hrun
  obtain ⟨rfl, -⟩ := expectFinished_eq_ok_iff.mp hend
  obtain ⟨hv, -⟩ := pure_eq_ok.mp hrun
  obtain ⟨rfl, rfl⟩ := Prod.mk.inj hv
  obtain rfl := eq_of_consumeEth66RequestId_none hid
  obtain ⟨p, hp, rfl⟩ := (hx _ _ _).mp hread
  rwa [List.append_nil]

theorem envelope_eq_ok {mk : Option Uint64 → α → μ} (hmk : Function.Injective2 mk)
    {y : DecodeResult (Option Uint64 × α)} {requestId : Option Uint64} {a : α}
    (h : (do let (requestId, a) ← y; return mk requestId a) = .ok (mk requestId a)) : y = .ok (requestId, a) := by
  rcases y with e | ⟨id, a'⟩
  · cases h
  · obtain ⟨rfl, rfl⟩ := hmk (Except.ok.inj h)
    rfl

end DevP2P.Eth
