import DevP2P.Eth.HeaderRequests
import DevP2P.Eth.MessageRoundTrip
import DevP2P.Eth.ObjectExact

/-!
# The outer list of a message

The decoders open the outer list of a message and read to the end of the input. They do not compare the two: the length
that the header declares may be less than what follows it.

* `Declares n q b` : a header that declares `n` bytes, and `q` behind it; `Accepts decode Content` : the decoder takes a
  header and a content, whatever the header declares;
* `Chain`, `readToEnd_eq_ok_iff` : the loops that go on to the end of the input;
* `EnvelopeContent`, `GetBlockHeadersMessage.Content`, `NewBlockHashesMessage.Content` : the contents that are read;
* `outer_list_honoured_iff` : what a decoder accepts is one list exactly if no content follows a header that declares
  less.
-/

namespace DevP2P.Eth
open DevP2P.Lib DevP2P.Rlp Stateful

variable {α μ : Type}

/-- `b` is the header of a list of `n` bytes, and `q`, which has so many bytes at least. -/
def Declares (n : Nat) (q b : Bytes) : Prop := n < kSizeModulus ∧ n ≤ q.length ∧ b = headerBytes true n ++ q

/-- The decoder accepts a list header with a content of `m` behind it. -/
def Accepts (decode : ByteView → DecodeResult μ) (Content : μ → Bytes → Prop) : Prop :=
  ∀ b m, decode b = .ok m ↔ ∃ n q, Declares n q b ∧ Content m q

/-- Whatever is decoded from `b`, `b` is one list. -/
def HonoursOuterList (decode : ByteView → DecodeResult μ) (b : Bytes) : Prop := ∀ m, decode b = .ok m → IsList b

/-- `b` is a content behind the header of a list that ends before the content does. -/
def Understated (Content : μ → Bytes → Prop) (b : Bytes) : Prop :=
  ∃ n q m, Declares n q b ∧ n < q.length ∧ Content m q

theorem isList_of_declares {n : Nat} {q b : Bytes} (h : Declares n q b) : IsList b ↔ n = q.length := by
  obtain ⟨hn, hle, rfl⟩ := h
  constructor
  · rintro ⟨payload, hsize, heq⟩
    obtain ⟨rfl, rfl⟩ := headerBytes_append_inj hn hle hsize le_rfl heq
    rfl
  · rintro rfl
    exact ⟨q, hn, rfl⟩

theorem Accepts.honours_iff {decode : ByteView → DecodeResult μ} {Content : μ → Bytes → Prop}
    (h : Accepts decode Content)
    (b : Bytes) : HonoursOuterList decode b ↔ ¬ Understated Content b := by
  constructor
  · rintro hlist ⟨n, q, m, hdeclares, hlt, hcontent⟩
    have heq := (isList_of_declares hdeclares).mp (hlist m ((h b m).mpr ⟨n, q, hdeclares, hcontent⟩))
    omega
  · intro hstated m hdecode
    obtain ⟨n, q, hdeclares, hcontent⟩ := (h b m).mp hdecode
    apply (isList_of_declares hdeclares).mpr
    have hle := hdeclares.2.1
    have hnot : ¬ n < q.length := fun hlt => hstated ⟨n, q, m, hdeclares, hlt, hcontent⟩
    omega

/-- A decoder that opens the outer list, and then reads `body`. -/
theorem accepts_openList {body : DecodeM μ} {Content : μ → Bytes → Prop}
    (hbody : ∀ q m, (∃ d, body ⟨q⟩ = .ok m d) ↔ Content m q) :
    Accepts (fun b => Stateful.outcome (openList body ⟨b⟩)) Content := by
  intro b m
  dsimp only
  rw [outcome_eq_ok]
  unfold openList
  constructor
  · rintro ⟨d, hok⟩
    obtain ⟨n, ⟨q⟩, hheader, hok⟩ := bind_eq_ok.mp hok
    exact ⟨n, q, readListHeaderBytes_eq_ok_iff.mp hheader, (hbody q m).mp ⟨d, hok⟩⟩
  · rintro ⟨n, q, hdeclares, hcontent⟩
    obtain ⟨d, hok⟩ := (hbody q m).mpr hcontent
    exact ⟨d, bind_eq_ok.mpr ⟨n, ⟨q⟩, readListHeaderBytes_eq_ok_iff.mpr hdeclares, hok⟩⟩

theorem finished_eq_ok_iff {x : DecodeM α} {G : α → Bytes → Prop} (hx : Parses x G) (f : α → μ) (q : Bytes) (m : μ) :
    (∃ d, (do
      let a ← x
      expectFinished
      return f a : DecodeM μ) ⟨q⟩ = .ok m d) ↔ ∃ a, G a q ∧ m = f a := by
  constructor
  · rintro ⟨d, hok⟩
    obtain ⟨a, p, r, hp, rfl, hrest⟩ := hx.bind_eq_ok.mp hok
    obtain ⟨⟨⟩, d₁, hend, hreturn⟩ := bind_eq_ok.mp hrest
    obtain ⟨rfl, -⟩ := expectFinished_eq_ok_iff.mp hend
    obtain ⟨rfl, -⟩ := pure_eq_ok.mp hreturn
    rw [List.append_nil]
    exact ⟨a, hp, rfl⟩
  · rintro ⟨a, ha, rfl⟩
    refine ⟨⟨[]⟩, hx.bind_eq_ok.mpr ⟨a, q, [], ha, (List.append_nil q).symm, ?_⟩⟩
    rw [bind_of_ok (expectFinished_eq_ok_iff.mpr ⟨rfl, rfl⟩)]
    rfl

/-! ## Request ids -/

theorem consumeEth66RequestId_list {b : Bytes} (hb : IsList b) : consumeEth66RequestId ⟨b⟩ = .ok none ⟨b⟩ := by
  obtain ⟨payload, hsize, rfl⟩ := hb
  unfold consumeEth66RequestId RlpDecoder.remaining
  cases hread : readUInt .uint64 ⟨encodeList payload⟩ with
  | error e d => rfl
  | ok id d =>
      obtain ⟨r⟩ := d
      obtain ⟨p, hp, heq⟩ := (Parses.uint .uint64 _ _ _).mp hread
      -- a number starts with a string, a list with a list
      obtain ⟨h, hc, hl⟩ := canonicalHeader_encodeList hsize []
      obtain ⟨s, hs, rfl⟩ := encodeString_of_number hp
      rw [List.append_nil, heq] at hc
      have := (hc.of_encodeString (lt_of_le_of_lt hs (by decide))).1
      simp [this] at hl

theorem consumeEth66RequestId_some {b r : Bytes} {id : Uint64} (h : consumeEth66RequestId ⟨b⟩ = .ok (some id) ⟨r⟩) :
    ∃ p, (Field.number .uint64 id).Reads p ∧ b = p ++ r := by
  unfold consumeEth66RequestId RlpDecoder.remaining at h
  cases hread : readUInt .uint64 ⟨b⟩ with
  | error e d' => simp [hread] at h
  | ok id' probe =>
      cases hpeek : probe.peekHeader with
      | error e => simp [hread, hpeek] at h
      | ok header =>
          by_cases hl : header.list = true
          · simp only [hread, hpeek, hl, if_true, EStateM.Result.ok.injEq, Option.some.injEq] at h
            obtain ⟨rfl, rfl⟩ := h
            exact (Parses.uint .uint64 _ _ _).mp hread
          · simp [hread, hpeek, hl] at h

/-- A content of the grammar `G`, behind the request id if there is one. -/
def EnvelopeContent (G : α → Bytes → Prop) (requestId : Option Uint64) (a : α) (q : Bytes) : Prop :=
  match requestId with
  | none => G a q
  | some id => ∃ p c, (Field.number .uint64 id).Reads p ∧ G a c ∧ q = p ++ c

theorem accepts_decodeEnvelope {x : DecodeM α} {G : α → Bytes → Prop} (hx : Parses x G)
    (hlist : ∀ a p, G a p → IsList p) :
    Accepts (decodeEnvelope x) fun m => EnvelopeContent G m.1 m.2 := by
  apply accepts_openList
  intro q m
  obtain ⟨requestId, a⟩ := m
  have hread (id : Option Uint64) (c : Bytes) := finished_eq_ok_iff hx (fun a => (id, a)) c (requestId, a)
  constructor
  · rintro ⟨d, hok⟩
    obtain ⟨id, ⟨c⟩, hid, hok⟩ := bind_eq_ok.mp hok
    obtain ⟨a', ha, heq⟩ := (hread id c).mp ⟨d, hok⟩
    obtain ⟨rfl, rfl⟩ := Prod.mk.inj heq
    cases requestId with
    | none =>
        obtain rfl := RlpDecoder.mk.inj (eq_of_consumeEth66RequestId_none hid)
        exact ha
    | some id =>
        obtain ⟨p, hp, rfl⟩ := consumeEth66RequestId_some hid
        exact ⟨p, c, hp, ha, rfl⟩
  · intro hcontent
    cases requestId with
    | none =>
        have hcontent : G a q := hcontent
        rw [bind_of_ok (consumeEth66RequestId_list (hlist a q hcontent))]
        exact (hread none q).mpr ⟨a, hcontent, rfl⟩
    | some id =>
        obtain ⟨p, c, hp, hc, rfl⟩ := hcontent
        obtain ⟨payload, hsize, rfl⟩ := hlist a c hc
        obtain ⟨h, hheader, hl⟩ := canonicalHeader_encodeList hsize []
        rw [List.append_nil] at hheader
        rw [bind_of_ok (consumeEth66RequestId_run hp hheader hl)]
        exact (hread (some id) _).mpr ⟨a, hc, rfl⟩

def MessageKind.Content (K : MessageKind α μ) (m : μ) (q : Bytes) : Prop :=
  ∃ requestId a, m = K.message requestId a ∧ EnvelopeContent K.content.Reads requestId a q

theorem MessageKind.accepts (K : MessageKind α μ) (hlist : ∀ a p, K.content.Reads a p → IsList p) :
    Accepts K.decode K.Content := by
  intro b m
  have hdecode := accepts_decodeEnvelope K.content.parses hlist b
  rw [K.decode_eq, Outcome.bind_eq_ok]
  constructor
  · rintro ⟨⟨requestId, a⟩, henvelope, heq⟩
    obtain rfl := Outcome.pure_eq_ok.mp heq
    obtain ⟨n, q, hdeclares, hcontent⟩ := (hdecode (requestId, a)).mp henvelope
    exact ⟨n, q, hdeclares, requestId, a, rfl, hcontent⟩
  · rintro ⟨n, q, hdeclares, requestId, a, rfl, hcontent⟩
    exact ⟨(requestId, a), (hdecode (requestId, a)).mpr ⟨n, q, hdeclares, hcontent⟩, rfl⟩

theorem ListOf.isList {G : α → Bytes → Prop} {vs : List α} {p : Bytes} (h : ListOf G vs p) : IsList p := by
  obtain ⟨q, -, hsize, rfl⟩ := h
  exact ⟨q, hsize, rfl⟩

theorem isList_of_hashList {hashes : List Hash256} {p : Bytes} (h : (hashListField hashes).Reads p) : IsList p :=
  ⟨_, h.1, h.2⟩

/-! ## Requests of block headers -/

/-- A hash or a number, not both. -/
def OneStart (origin : Option Hash256 × Option Uint64) : Prop := origin.1.isSome = !origin.2.isSome

theorem parses_readOrigin : Parses readOrigin fun origin p =>
    OneStart origin ∧ Concat Field.Reads (startFields origin) p := by
  intro b origin r
  constructor
  · intro hok
    obtain ⟨h, w, -, hok⟩ := peekHeader_bind_eq_ok.mp hok
    obtain ⟨-, hok⟩ := rejectIf_bind_eq_ok.mp hok
    by_cases h32 : h.payloadSizeBytes = 32
    · rw [if_pos h32] at hok
      obtain ⟨hash, p, b', hp, rfl, hreturn⟩ := (parses_readFixed 32).bind_eq_ok.mp hok
      obtain ⟨rfl, hr⟩ := pure_eq_ok.mp hreturn
      obtain rfl := RlpDecoder.mk.inj hr
      exact ⟨p, ⟨rfl, concat_singleton.mpr hp⟩, rfl⟩
    · rw [if_neg h32] at hok
      obtain ⟨number, p, b', hp, rfl, hreturn⟩ := (parses_readNumber .uint64).bind_eq_ok.mp hok
      obtain ⟨rfl, hr⟩ := pure_eq_ok.mp hreturn
      obtain rfl := RlpDecoder.mk.inj hr
      exact ⟨p, ⟨rfl, concat_singleton.mpr hp⟩, rfl⟩
  · rintro ⟨p, ⟨hone, hp⟩, rfl⟩
    rcases origin with ⟨_ | startHash, _ | startNumber⟩
    · simp [OneStart] at hone
    · exact readOrigin_number_run (concat_singleton.mp hp) r
    · obtain ⟨-, rfl⟩ := concat_singleton.mp hp
      exact readOrigin_hash startHash r
    · simp [OneStart] at hone

namespace GetBlockHeadersMessage

/-- The payload: a start, and the fields behind it. -/
def Payload (m : GetBlockHeadersMessage) (c : Bytes) : Prop :=
  OneStart (m.startHash, m.startNumber) ∧ Concat Field.Reads m.fields c

/-- The payload alone, or a request id and the payload behind a second list header, whose length is not used either. -/
def Content (m : GetBlockHeadersMessage) (q : Bytes) : Prop :=
  match m.requestId with
  | none => m.Payload q
  | some id => ∃ p k c d, (Field.number .uint64 id).Reads p ∧ Declares k c d ∧ m.Payload c ∧ q = p ++ d

end GetBlockHeadersMessage

theorem parses_decodeGetBlockHeadersPayload (requestId : Option Uint64) :
    Parses (decodeGetBlockHeadersPayload requestId) fun m c => m.requestId = requestId ∧ m.Payload c := by
  have horigin := parses_readOrigin
  have hall : Parses (decodeGetBlockHeadersPayload requestId) fun m p =>
      (m.requestId = requestId ∧ OneStart (m.startHash, m.startNumber)) ∧
        Concat Field.Reads (startFields (m.startHash, m.startNumber) ++
          [.number .uint64 m.maxHeaders, .number .uint64 m.skip, .flag m.reverse]) p := by
    apply horigin.fields (fun m : GetBlockHeadersMessage => (m.startHash, m.startNumber)) (fun m hm => hm.2)
    intro origin hone
    apply (parses_readNumber .uint64).field GetBlockHeadersMessage.maxHeaders
    intro maxHeaders
    apply (parses_readNumber .uint64).field GetBlockHeadersMessage.skip
    intro skip
    apply (Parses.bool.withError _).field GetBlockHeadersMessage.reverse
    intro reverse
    apply Parses.done
    rintro ⟨id, startHash, startNumber, a, b, c⟩
    simp only [GetBlockHeadersMessage.mk.injEq]
    constructor
    · rintro ⟨rfl, rfl, rfl, rfl, rfl, -⟩
      exact ⟨rfl, rfl, rfl, rfl, rfl, rfl⟩
    · rintro ⟨rfl, rfl, rfl, rfl, rfl, rfl⟩
      exact ⟨rfl, rfl, rfl, rfl, rfl, hone⟩
  apply hall.congr
  intro m p
  rw [and_assoc]
  rfl

theorem consumeEth66RequestId_payload {m : GetBlockHeadersMessage} {c : Bytes} (h : m.Payload c) :
    consumeEth66RequestId ⟨c⟩ = .ok none ⟨c⟩ := by
  obtain ⟨hone, hfields⟩ := h
  obtain ⟨f, hf⟩ : ∃ f, m.originFields = [f] := by
    rcases m with ⟨id, _ | startHash, _ | startNumber, maxHeaders, skip, reverse⟩
    · simp [OneStart] at hone
    · exact ⟨_, rfl⟩
    · exact ⟨_, rfl⟩
    · exact ⟨_, rfl⟩
  rw [GetBlockHeadersMessage.fields, hf, List.singleton_append] at hfields
  obtain ⟨p, c₁, hp, hrest, rfl⟩ := concat_cons.mp hfields
  obtain ⟨p₁, c₂, hp₁, -, rfl⟩ := concat_cons.mp hrest
  obtain ⟨s, hs, rfl⟩ := encodeString_of_number hp₁
  exact consumeEth66RequestId_string hp.isItem (lt_of_le_of_lt hs (by decide)) c₂

theorem accepts_decodeGetBlockHeaders : Accepts decodeGetBlockHeaders GetBlockHeadersMessage.Content := by
  apply accepts_openList
  intro q m
  have hread (id : Option Uint64) (c : Bytes) : _ ↔ m.requestId = id ∧ m.Payload c :=
    (finished_eq_ok_iff (parses_decodeGetBlockHeadersPayload id) (fun msg => msg) c m).trans
      ⟨fun ⟨_, h, heq⟩ => heq ▸ h, fun h => ⟨m, h, rfl⟩⟩
  constructor
  · rintro ⟨d, hok⟩
    obtain ⟨id, ⟨c⟩, hid, hbody⟩ := bind_eq_ok.mp hok
    unfold GetBlockHeadersMessage.Content
    cases id with
    | none =>
        obtain rfl := RlpDecoder.mk.inj (eq_of_consumeEth66RequestId_none hid)
        obtain ⟨hnone, hpayload⟩ := (hread none _).mp ⟨d, hbody⟩
        rw [hnone]
        exact hpayload
    | some id =>
        obtain ⟨p, hp, rfl⟩ := consumeEth66RequestId_some hid
        obtain ⟨k, ⟨c'⟩, hheader, hrest⟩ := bind_eq_ok.mp hbody
        obtain ⟨hsome, hpayload⟩ := (hread (some id) c').mp ⟨d, hrest⟩
        rw [hsome]
        exact ⟨p, k, c', c, hp, readListHeaderBytes_eq_ok_iff.mp hheader, hpayload, rfl⟩
  · intro hcontent
    unfold GetBlockHeadersMessage.Content at hcontent
    cases hid : m.requestId with
    | none =>
        rw [hid] at hcontent
        obtain ⟨d, hok⟩ := (hread none q).mpr ⟨hid, hcontent⟩
        exact ⟨d, bind_eq_ok.mpr ⟨none, ⟨q⟩, consumeEth66RequestId_payload hcontent, hok⟩⟩
    | some id =>
        rw [hid] at hcontent
        obtain ⟨p, k, c, b, hp, hdeclares, hpayload, rfl⟩ := hcontent
        obtain ⟨d, hok⟩ := (hread (some id) c).mpr ⟨hid, hpayload⟩
        have hheader := readListHeaderBytes_eq_ok_iff.mpr hdeclares
        obtain ⟨hk, hle, rfl⟩ := hdeclares
        have hlist : CanonicalHeader (headerBytes true k ++ c) ⟨true, k, _⟩ c := .header hk hle (by simp)
        have hconsume := consumeEth66RequestId_run hp hlist rfl
        exact ⟨d, bind_eq_ok.mpr ⟨some id, _, hconsume, bind_eq_ok.mpr ⟨k, ⟨c⟩, hheader, hok⟩⟩⟩

/-! ## Announcements -/

/-- One element after the other, from `b` to the end of the input; `R v b r` reads `v` and goes on with `r`. -/
def Chain (R : α → Bytes → Bytes → Prop) : List α → Bytes → Prop
  | [], b => b = []
  | v :: vs, b => ∃ r, R v b r ∧ Chain R vs r

section Chain

variable {x : DecodeM α} {R : α → Bytes → Bytes → Prop} (hx : ∀ b v r, x ⟨b⟩ = .ok v ⟨r⟩ ↔ R v b r)
  (hR : ∀ v b r, R v b r → r.length < b.length)

include hR in
theorem chain_nil_iff (vs : List α) : Chain R vs [] ↔ vs = [] := by
  cases vs with
  | nil => exact iff_of_true rfl rfl
  | cons v vs =>
      refine iff_of_false ?_ (List.cons_ne_nil v vs)
      rintro ⟨r, hr, -⟩
      exact absurd (hR v [] r hr) (Nat.not_lt_zero _)

include hR in
theorem stop_iff_chain (acc vs : List α) :
    (∃ d, (EStateM.Result.ok acc (RlpDecoder.mk []) : EStateM.Result DecodingError _ _) = .ok vs d) ↔
      ∃ ws, vs = acc ++ ws ∧ Chain R ws [] := by
  simp only [chain_nil_iff hR, EStateM.Result.ok.injEq, exists_and_left, exists_eq', and_true, exists_eq_right,
    List.append_nil]
  exact eq_comm

include hx hR in
/-- The induction is on the rounds that are left; each takes a byte, so they suffice. -/
theorem readWhile_iff_chain (fuel : Nat) : ∀ (b : Bytes) (acc vs : List α), b.length ≤ fuel →
    ((∃ d, readWhile x 0 fuel acc ⟨b⟩ = .ok vs d) ↔ ∃ ws, vs = acc ++ ws ∧ Chain R ws b) := by
  induction fuel with
  | zero =>
      intro b acc vs hb
      obtain rfl := List.length_eq_zero_iff.mp (Nat.le_zero.mp hb)
      exact stop_iff_chain hR acc vs
  | succ fuel ih =>
      intro b acc vs hb
      unfold readWhile
      rw [get_bind]
      by_cases hlt : b.length > 0
      · simp only [if_pos hlt]
        constructor
        · rintro ⟨d, hok⟩
          obtain ⟨v, ⟨r⟩, hv, hrest⟩ := bind_eq_ok.mp hok
          have hread := (hx b v r).mp hv
          have := hR v b r hread
          obtain ⟨ws, rfl, hws⟩ := (ih r _ _ (by omega)).mp ⟨d, hrest⟩
          exact ⟨v :: ws, by simp, r, hread, hws⟩
        · rintro ⟨ws, rfl, hws⟩
          cases ws with
          | nil =>
              obtain rfl : b = [] := hws
              simp at hlt
          | cons v ws =>
              obtain ⟨r, hread, hws⟩ := hws
              have := hR v b r hread
              obtain ⟨d, hrest⟩ := (ih r (acc ++ [v]) (acc ++ v :: ws) (by omega)).mpr ⟨ws, by simp, hws⟩
              exact ⟨d, bind_eq_ok.mpr ⟨v, ⟨r⟩, (hx b v r).mpr hread, hrest⟩⟩
      · simp only [if_neg hlt]
        obtain rfl := List.length_eq_zero_iff.mp (Nat.eq_zero_of_not_pos hlt)
        exact stop_iff_chain hR acc vs

include hx hR in
theorem readToEnd_eq_ok_iff (b : Bytes) (vs : List α) : (∃ d, readToEnd x ⟨b⟩ = .ok vs d) ↔ Chain R vs b := by
  unfold readToEnd readItems
  rw [get_bind, readWhile_iff_chain hx hR _ b [] vs le_rfl]
  simp

include hx hR in
theorem accepts_readToEnd (f : List α → μ) :
    Accepts (fun b => Stateful.outcome (openList (do
      let vs ← readToEnd x
      return f vs) ⟨b⟩)) fun m q => ∃ vs, Chain R vs q ∧ m = f vs := by
  apply accepts_openList
  intro q m
  constructor
  · rintro ⟨d, hok⟩
    obtain ⟨vs, d₁, hvs, hreturn⟩ := bind_eq_ok.mp hok
    obtain ⟨rfl, -⟩ := pure_eq_ok.mp hreturn
    exact ⟨vs, (readToEnd_eq_ok_iff hx hR q vs).mp ⟨d₁, hvs⟩, rfl⟩
  · rintro ⟨vs, hvs, rfl⟩
    obtain ⟨d, hok⟩ := (readToEnd_eq_ok_iff hx hR q vs).mpr hvs
    exact ⟨d, bind_eq_ok.mpr ⟨vs, d, hok, rfl⟩⟩

end Chain

/-- An entry: a list header, whose length is not used, and the two fields. -/
def NewBlockHashEntry.Read (entry : NewBlockHashEntry) (b r : Bytes) : Prop :=
  ∃ n p, Opens n p r b ∧ Concat Field.Reads entry.fields p

def NewBlockHashesMessage.Content (m : NewBlockHashesMessage) (q : Bytes) : Prop :=
  Chain NewBlockHashEntry.Read m.entries q

def NewPooledTransactionHashesMessage.Content (m : NewPooledTransactionHashesMessage) (q : Bytes) : Prop :=
  Concat (fun hash => (hashField hash).Reads) m.hashes q

theorem readNewBlockHashEntry_eq_ok_iff (b : Bytes) (entry : NewBlockHashEntry) (r : Bytes) :
    readNewBlockHashEntry ⟨b⟩ = .ok entry ⟨r⟩ ↔ entry.Read b r := by
  unfold readNewBlockHashEntry
  rw [openList_eq_ok_iff parses_newBlockHashFields]
  simp only [true_and]
  rfl

theorem accepts_decodeNewBlockHashes : Accepts decodeNewBlockHashes NewBlockHashesMessage.Content := by
  have hread (entry : NewBlockHashEntry) (b r : Bytes) (h : entry.Read b r) : r.length < b.length := by
    obtain ⟨n, p, ⟨-, -, rfl⟩, -⟩ := h
    have := List.length_pos_iff.mpr (headerBytes_ne_nil true n)
    simp only [List.length_append]
    omega
  intro b m
  apply (accepts_readToEnd readNewBlockHashEntry_eq_ok_iff hread NewBlockHashesMessage.mk b m).trans
  simp only [NewBlockHashesMessage.Content]
  constructor
  · rintro ⟨n, q, hdeclares, entries, hentries, rfl⟩
    exact ⟨n, q, hdeclares, hentries⟩
  · rintro ⟨n, q, hdeclares, hentries⟩
    exact ⟨n, q, hdeclares, m.entries, hentries, rfl⟩

theorem chain_iff_concat {G : α → Bytes → Prop} (vs : List α) (b : Bytes) :
    Chain (fun v b r => ∃ p, G v p ∧ b = p ++ r) vs b ↔ Concat G vs b := by
  induction vs generalizing b with
  | nil => simp [Chain]
  | cons v vs ih =>
      simp only [Chain, ih, concat_cons]
      constructor
      · rintro ⟨r, ⟨p, hp, hb⟩, hr⟩
        exact ⟨p, r, hp, hr, hb⟩
      · rintro ⟨p, r, hp, hr, hb⟩
        exact ⟨r, ⟨p, hp, hb⟩, hr⟩

theorem accepts_decodeNewPooledTxHashes :
    Accepts decodeNewPooledTxHashes NewPooledTransactionHashesMessage.Content := by
  have hread (hash : Hash256) (b r : Bytes) (h : ∃ p, (hashField hash).Reads p ∧ b = p ++ r) : r.length < b.length := by
    obtain ⟨p, hp, rfl⟩ := h
    have := List.length_pos_iff.mpr hp.isItem.ne_nil
    rw [List.length_append]
    omega
  intro b m
  apply (accepts_readToEnd (parses_readFixed 32) hread NewPooledTransactionHashesMessage.mk b m).trans
  simp only [NewPooledTransactionHashesMessage.Content, chain_iff_concat]
  constructor
  · rintro ⟨n, q, hdeclares, hashes, hhashes, rfl⟩
    exact ⟨n, q, hdeclares, hhashes⟩
  · rintro ⟨n, q, hdeclares, hhashes⟩
    exact ⟨n, q, hdeclares, m.hashes, hhashes, rfl⟩

/-! ## All decoders -/

/-- What a decoder accepts is one list, unless the header declares less than the content behind it. -/
theorem outer_list_honoured_iff (b : Bytes) :
    (HonoursOuterList decodeGetBlockHeaders b ↔ ¬ Understated GetBlockHeadersMessage.Content b) ∧
    (HonoursOuterList decodeBlockHeaders b ↔ ¬ Understated blockHeadersKind.Content b) ∧
    (HonoursOuterList decodeGetReceipts b ↔ ¬ Understated getReceiptsKind.Content b) ∧
    (HonoursOuterList decodeReceipts b ↔ ¬ Understated receiptsKind.Content b) ∧
    (HonoursOuterList decodeGetPooledTransactions b ↔ ¬ Understated getPooledTransactionsKind.Content b) ∧
    (HonoursOuterList decodePooledTransactions b ↔ ¬ Understated pooledTransactionsKind.Content b) ∧
    (HonoursOuterList decodeGetBlockBodies b ↔ ¬ Understated getBlockBodiesKind.Content b) ∧
    (HonoursOuterList decodeBlockBodies b ↔ ¬ Understated blockBodiesKind.Content b) ∧
    (HonoursOuterList decodeNewBlockHashes b ↔ ¬ Understated NewBlockHashesMessage.Content b) ∧
    (HonoursOuterList decodeNewPooledTxHashes b ↔ ¬ Understated NewPooledTransactionHashesMessage.Content b) :=
  ⟨accepts_decodeGetBlockHeaders.honours_iff b,
    (blockHeadersKind.accepts fun _ _ => ListOf.isList).honours_iff b,
    (getReceiptsKind.accepts fun _ _ => isList_of_hashList).honours_iff b,
    (receiptsKind.accepts fun _ _ => ListOf.isList).honours_iff b,
    (getPooledTransactionsKind.accepts fun _ _ => isList_of_hashList).honours_iff b,
    (pooledTransactionsKind.accepts fun _ _ => ListOf.isList).honours_iff b,
    (getBlockBodiesKind.accepts fun _ _ => isList_of_hashList).honours_iff b,
    (blockBodiesKind.accepts fun _ _ => ListOf.isList).honours_iff b,
    accepts_decodeNewBlockHashes.honours_iff b,
    accepts_decodeNewPooledTxHashes.honours_iff b⟩

/-- An empty list with a request behind it is decoded as the request. -/
theorem empty_outer_list_is_decoded :
    decodeGetReceipts [0xC0, 0x01, 0xC0] = .ok ⟨some 1, []⟩ ∧ ¬ IsList [0xC0, 0x01, 0xC0] := by
  refine ⟨by decide +kernel, ?_⟩
  have hdeclares : Declares 0 [0x01, 0xC0] [0xC0, 0x01, 0xC0] := ⟨by decide, by decide, by decide⟩
  rw [isList_of_declares hdeclares]
  decide

end DevP2P.Eth
