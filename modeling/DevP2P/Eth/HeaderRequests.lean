import DevP2P.Eth.MessageCodec

/-!
# Requests of block headers

The start of a range is a hash or a number. The encoder also takes a request with neither, and writes no item for it;
the decoder then takes the number of headers for the start.

* `encodeGetBlockHeaders_eq` : what is written for a request without two starts;
* `decodeGetBlockHeaders_encoding`, `origin_of_decodeGetBlockHeaders` : what is decoded has a start;
* `getBlockHeaders_round_trip_iff` : a request is decoded as it was encoded exactly if it has a start.
-/

namespace DevP2P.Eth
open DevP2P.Lib DevP2P.Rlp Stateful

/-- The start of a range: the hash, the number, or no item. -/
def startFields (origin : Option Hash256 × Option Uint64) : List Field :=
  match origin.1, origin.2 with
  | some startHash, _ => [.string startHash.bytes]
  | none, some startNumber => [.number .uint64 startNumber]
  | none, none => []

namespace GetBlockHeadersMessage

def originFields (m : GetBlockHeadersMessage) : List Field := startFields (m.startHash, m.startNumber)

def fields (m : GetBlockHeadersMessage) : List Field :=
  m.originFields ++ [.number .uint64 m.maxHeaders, .number .uint64 m.skip, .flag m.reverse]

def encoding (m : GetBlockHeadersMessage) : Bytes := envelope m.requestId (encodeList (encodeFields m.fields))

theorem length_encodeFields_le (m : GetBlockHeadersMessage) : (encodeFields m.fields).length ≤ 200 := by
  rcases m with ⟨id, _ | ⟨hash, hhash⟩, _ | number, maxHeaders, skip, reverse⟩ <;>
  · apply (length_encodeFields_le_bound _ ?_).trans
    · simp [fields, originFields, startFields, Field.bound, *]
    · simp [fields, originFields, startFields, Field.Sized, *]
      try decide

theorem length_encodeFields_lt (m : GetBlockHeadersMessage) : (encodeFields m.fields).length < kSizeModulus :=
  lt_of_le_of_lt m.length_encodeFields_le (by decide)

theorem length_encoding_lt (m : GetBlockHeadersMessage) : m.encoding.length < kSizeModulus := by
  have hlist := length_encodeList_le m.length_encodeFields_lt
  have hfields := m.length_encodeFields_le
  have hbound : 300 < kSizeModulus := by decide
  unfold encoding
  cases m.requestId with
  | none =>
      show (encodeList (encodeFields m.fields)).length < kSizeModulus
      omega
  | some id =>
      have hid : (Field.number .uint64 id).encoding.length ≤ 41 := Field.length_encoding_le_bound trivial
      have hpayload : ((Field.number .uint64 id).encoding ++ encodeList (encodeFields m.fields)).length ≤ 250 := by
        rw [List.length_append]
        omega
      have := length_encodeList_le (lt_of_le_of_lt hpayload (by omega))
      show (encodeList ((Field.number .uint64 id).encoding ++ encodeList (encodeFields m.fields))).length < kSizeModulus
      omega

end GetBlockHeadersMessage

/-! ## Encoding -/

theorem writes_origin (m : GetBlockHeadersMessage) : Appends (addOrigin m) (encodeFields m.originFields) := by
  unfold addOrigin GetBlockHeadersMessage.originFields startFields
  cases m.startHash with
  | some startHash => exact (writes_fixed startHash (by decide)).lastField
  | none =>
      cases m.startNumber with
      | some startNumber => exact (writes_number startNumber).lastField
      | none =>
          intro buf starts
          rw [encodeFields_nil, List.append_nil]
          rfl

theorem encodeGetBlockHeaders_eq {m : GetBlockHeadersMessage} (h : ¬ (m.startHash.isSome ∧ m.startNumber.isSome)) :
    encodeGetBlockHeaders m = .ok m.encoding := by
  apply encodeEnvelope_eq _ m.length_encoding_lt
  intro buf starts
  unfold encodeGetBlockHeadersPayload
  rw [rejectIf_bind_of_not h]
  apply appends_listOf _ m.length_encodeFields_lt
  unfold GetBlockHeadersMessage.fields
  rw [encodeFields_append]
  apply (writes_origin m).seq
  apply (writes_number _).field
  apply (writes_number _).field
  exact ((Appends.bool m.reverse).withError _).lastField (f := .flag _)

theorem not_both_of_encodeGetBlockHeaders {m : GetBlockHeadersMessage} {b : Bytes}
    (h : encodeGetBlockHeaders m = .ok b) :
    ¬ (m.startHash.isSome ∧ m.startNumber.isSome) := by
  obtain ⟨_, hrun⟩ := outcome_eq_ok.mp h
  obtain ⟨_, _, hbody, -⟩ := bind_eq_ok.mp hrun
  have hpayload : ∃ s t, encodeGetBlockHeadersPayload m s = .ok () t := by
    cases hid : m.requestId with
    | none =>
        rw [hid] at hbody
        exact ⟨_, _, hbody⟩
    | some id =>
        rw [hid] at hbody
        obtain ⟨_, _, -, hbody⟩ := bind_eq_ok.mp hbody
        obtain ⟨_, _, hcalls, -⟩ := bind_eq_ok.mp hbody
        obtain ⟨_, _, -, hcalls⟩ := bind_eq_ok.mp hcalls
        exact ⟨_, _, hcalls⟩
  obtain ⟨_, _, hpayload⟩ := hpayload
  exact (rejectIf_bind_eq_ok.mp hpayload).1

/-! ## Decoding -/

theorem readOrigin_hash (startHash : Hash256) (r : Bytes) :
    readOrigin ⟨(Field.string startHash.bytes).encoding ++ r⟩ = .ok (some startHash, none) ⟨r⟩ := by
  have hs : startHash.bytes.length < kSizeModulus := by
    rw [startHash.size_eq]
    decide
  obtain ⟨h, hc, hl, hsize⟩ := canonicalHeader_encodeString hs r
  apply peekHeader_bind_eq_ok.mpr
  refine ⟨h, _, hc, ?_⟩
  have hread : (Field.string startHash.bytes).Reads _ := Field.reads_encoding hs
  rw [rejectIf_bind_of_not (by simp [hl]), if_pos (hsize.trans startHash.size_eq),
    bind_of_ok ((parses_readFixed 32).run hread r)]
  rfl

theorem readOrigin_number_run {startNumber : Uint64} {p : Bytes} (hp : (Field.number .uint64 startNumber).Reads p)
    (r : Bytes) :
    readOrigin ⟨p ++ r⟩ = .ok (none, some startNumber) ⟨r⟩ := by
  obtain ⟨s, hs, rfl⟩ := encodeString_of_number hp
  obtain ⟨h, hc, hl, hsize⟩ := canonicalHeader_encodeString (lt_of_le_of_lt hs (by decide)) r
  apply peekHeader_bind_eq_ok.mpr
  refine ⟨h, _, hc, ?_⟩
  rw [rejectIf_bind_of_not (by simp [hl]), if_neg (by omega),
    bind_of_ok ((parses_readNumber .uint64).run hp r)]
  rfl

theorem readOrigin_number (startNumber : Uint64) (r : Bytes) :
    readOrigin ⟨(Field.number .uint64 startNumber).encoding ++ r⟩ = .ok (none, some startNumber) ⟨r⟩ :=
  readOrigin_number_run (Field.reads_encoding trivial) r

theorem origin_of_readOrigin {d d' : RlpDecoder} {origin : Option Hash256 × Option Uint64}
    (h : readOrigin d = .ok origin d') : origin.1.isSome ∨ origin.2.isSome := by
  unfold readOrigin at h
  rw [get_bind] at h
  obtain ⟨header, _, -, h⟩ := bind_eq_ok.mp h
  obtain ⟨-, h⟩ := rejectIf_bind_eq_ok.mp h
  by_cases h32 : header.payloadSizeBytes = 32
  · rw [if_pos h32] at h
    obtain ⟨hash, _, -, h⟩ := bind_eq_ok.mp h
    obtain ⟨rfl, -⟩ := pure_eq_ok.mp h
    exact .inl rfl
  · rw [if_neg h32] at h
    obtain ⟨number, _, -, h⟩ := bind_eq_ok.mp h
    obtain ⟨rfl, -⟩ := pure_eq_ok.mp h
    exact .inr rfl

theorem payload_of_decodeGetBlockHeaders {m : GetBlockHeadersMessage} {b : Bytes}
    (h : decodeGetBlockHeaders b = .ok m) :
    ∃ requestId d d', decodeGetBlockHeadersPayload requestId d = .ok m d' := by
  obtain ⟨_, h⟩ := outcome_eq_ok.mp h
  obtain ⟨_, _, -, h⟩ := bind_eq_ok.mp h
  obtain ⟨requestId, _, -, h⟩ := bind_eq_ok.mp h
  have hrest : ∃ d d', (do
      let msg ← decodeGetBlockHeadersPayload requestId
      expectFinished
      return msg) d = .ok m d' := by
    by_cases hid : requestId.isSome
    · rw [if_pos hid] at h
      obtain ⟨_, _, -, h⟩ := bind_eq_ok.mp h
      exact ⟨_, _, h⟩
    · rw [if_neg hid] at h
      exact ⟨_, _, h⟩
  obtain ⟨_, _, hrest⟩ := hrest
  obtain ⟨_, _, hpayload, hrest⟩ := bind_eq_ok.mp hrest
  obtain ⟨_, _, -, hrest⟩ := bind_eq_ok.mp hrest
  obtain ⟨rfl, -⟩ := pure_eq_ok.mp hrest
  exact ⟨_, _, _, hpayload⟩

theorem origin_of_decodeGetBlockHeaders {m : GetBlockHeadersMessage} {b : Bytes} (h : decodeGetBlockHeaders b = .ok m) :
    m.startHash.isSome ∨ m.startNumber.isSome := by
  obtain ⟨_, _, _, hpayload⟩ := payload_of_decodeGetBlockHeaders h
  obtain ⟨⟨startHash, startNumber⟩, _, horigin, h⟩ := bind_eq_ok.mp hpayload
  obtain ⟨_, _, -, h⟩ := bind_eq_ok.mp h
  obtain ⟨_, _, -, h⟩ := bind_eq_ok.mp h
  obtain ⟨_, _, -, h⟩ := bind_eq_ok.mp h
  obtain ⟨rfl, -⟩ := pure_eq_ok.mp h
  exact origin_of_readOrigin horigin

theorem consumeEth66RequestId_string {p s : Bytes} (hp : IsItem p) (hs : s.length < kSizeModulus) (r : Bytes) :
    consumeEth66RequestId ⟨p ++ (encodeString s ++ r)⟩ = .ok none ⟨p ++ (encodeString s ++ r)⟩ := by
  unfold consumeEth66RequestId RlpDecoder.remaining
  cases hread : readUInt .uint64 ⟨p ++ (encodeString s ++ r)⟩ with
  | error e d => rfl
  | ok id d =>
      -- an integer that was read is the first item
      obtain ⟨rest⟩ := d
      obtain ⟨q, hq, heq⟩ := (Parses.uint .uint64 _ _ _).mp hread
      obtain ⟨-, rfl⟩ := isItem_prefixFree.append_inj hp hq.isItem heq
      obtain ⟨h, hc, hl, -⟩ := canonicalHeader_encodeString hs r
      simp [peekHeader_eq_ok_iff.mpr ⟨_, hc⟩, hl]

section

variable {m : GetBlockHeadersMessage} (hboth : ¬ (m.startHash.isSome ∧ m.startNumber.isSome))
  (horigin : m.startHash.isSome ∨ m.startNumber.isSome)

include hboth horigin

theorem readOrigin_run (r : Bytes) :
    readOrigin ⟨encodeFields m.originFields ++ r⟩ = .ok (m.startHash, m.startNumber) ⟨r⟩ := by
  rcases m with ⟨id, _ | startHash, _ | startNumber, maxHeaders, skip, reverse⟩
  · simp at horigin
  · have h := readOrigin_number startNumber r
    rwa [← encodeFields_singleton] at h
  · have h := readOrigin_hash startHash r
    rwa [← encodeFields_singleton] at h
  · simp at hboth

theorem decodeGetBlockHeadersPayload_run :
    decodeGetBlockHeadersPayload m.requestId ⟨encodeFields m.fields⟩ = .ok m ⟨[]⟩ := by
  have hnumber (n : Uint64) : (Field.number .uint64 n).Reads _ := Field.reads_encoding trivial
  have hflag : (Field.flag m.reverse).Reads _ := Field.reads_encoding trivial
  unfold decodeGetBlockHeadersPayload GetBlockHeadersMessage.fields
  rw [encodeFields_append, bind_of_ok (readOrigin_run hboth horigin _)]
  dsimp only
  rw [encodeFields_cons, bind_of_ok ((parses_readNumber .uint64).run (hnumber m.maxHeaders) _), encodeFields_cons,
    bind_of_ok ((parses_readNumber .uint64).run (hnumber m.skip) _), encodeFields_cons,
    bind_of_ok ((Parses.bool.withError _).run hflag _)]
  rfl

omit hboth in
theorem consumeEth66RequestId_fields :
    consumeEth66RequestId ⟨encodeFields m.fields⟩ = .ok none ⟨encodeFields m.fields⟩ := by
  have hsized := sized_of_length_encodeFields m.length_encodeFields_lt
  have hmax : (beBytes m.maxHeaders.toNat).length < kSizeModulus := Field.length_beBytes_lt m.maxHeaders
  obtain ⟨f, hf⟩ : ∃ f, m.originFields = [f] := by
    rcases m with ⟨id, _ | startHash, _ | startNumber, maxHeaders, skip, reverse⟩
    · simp at horigin
    · exact ⟨_, rfl⟩
    · exact ⟨_, rfl⟩
    · exact ⟨_, rfl⟩
  rw [GetBlockHeadersMessage.fields, hf] at hsized ⊢
  rw [List.singleton_append, encodeFields_cons, encodeFields_cons]
  exact consumeEth66RequestId_string (Field.reads_encoding (hsized f List.mem_cons_self)).isItem hmax _

theorem decodeGetBlockHeaders_encoding : decodeGetBlockHeaders m.encoding = .ok m := by
  have hpayload := decodeGetBlockHeadersPayload_run hboth horigin
  have hfields := m.length_encodeFields_lt
  have hlt := m.length_encoding_lt
  apply outcome_eq_ok.mpr
  refine ⟨⟨[]⟩, ?_⟩
  unfold GetBlockHeadersMessage.encoding at hlt ⊢
  cases hid : m.requestId with
  | none =>
      rw [hid] at hpayload
      rw [envelope, bind_of_ok (readListHeaderBytes_encodeList hfields),
        bind_of_ok (consumeEth66RequestId_fields horigin), if_neg (by simp)]
      dsimp only
      rw [bind_of_ok hpayload]
      rfl
  | some id =>
      rw [hid] at hpayload hlt
      have hnumber : (Field.number .uint64 id).Reads _ := Field.reads_encoding trivial
      obtain ⟨h, hc, hl⟩ := canonicalHeader_encodeList hfields []
      rw [List.append_nil] at hc
      rw [envelope, bind_of_ok (readListHeaderBytes_encodeList (lt_of_le_of_lt (length_le_encodeList _) hlt)),
        bind_of_ok (consumeEth66RequestId_run hnumber hc hl), if_pos (by simp),
        bind_of_ok (readListHeaderBytes_encodeList hfields)]
      dsimp only
      rw [bind_of_ok hpayload]
      rfl

end

/-- What the encoder accepts is decoded as it was encoded exactly if it has a start; two starts are not encoded. -/
theorem getBlockHeaders_round_trip_iff (m : GetBlockHeadersMessage) :
    ((∀ b, encodeGetBlockHeaders m = .ok b → decodeGetBlockHeaders b = .ok m) ∧
        (m.startHash.isSome ∧ m.startNumber.isSome → ∃ e, encodeGetBlockHeaders m = .error e)) ↔
      (m.startHash.isSome ∨ m.startNumber.isSome) := by
  refine ⟨?_, ?_⟩
  · intro ⟨hround, _⟩
    by_cases hboth : m.startHash.isSome ∧ m.startNumber.isSome
    · exact .inl hboth.1
    · exact origin_of_decodeGetBlockHeaders (hround _ (encodeGetBlockHeaders_eq hboth))
  · intro horigin
    refine ⟨?_, ?_⟩
    · intro b hb
      have hboth := not_both_of_encodeGetBlockHeaders hb
      rw [encodeGetBlockHeaders_eq hboth, Except.ok.injEq] at hb
      rw [← hb]
      exact decodeGetBlockHeaders_encoding hboth horigin
    · intro hboth
      cases hencode : encodeGetBlockHeaders m with
      | error e => exact ⟨e, rfl⟩
      | ok b => exact absurd hboth (not_both_of_encodeGetBlockHeaders hencode)

/-- A request without a start: its three items are read as a start and the first two of the numbers behind it. -/
theorem getBlockHeaders_without_start :
    encodeGetBlockHeaders ⟨some 1111, none, none, 0, 0, false⟩ = .ok [0xC7, 0x82, 0x04, 0x57, 0xC3, 0x80, 0x80, 0x80] ∧
      decodeGetBlockHeaders [0xC7, 0x82, 0x04, 0x57, 0xC3, 0x80, 0x80, 0x80] = .error .kUnexpectedString := by
  decide +kernel

end DevP2P.Eth
