import DevP2P.Rlp.Header

/-!
# The decoder (`rlp/rlp_decoder.cpp`, `rlp/rlp_decoder.hpp`)

`RlpDecoder` is a view that shrinks from the front as items are read. Every read first decodes the
header on a copy of the view (`peekHeader`) and then drops the header from the view itself
(`skipHeaderInternal`).

* `readBytes_eq_ok_iff` : `read(Bytes&)` accepts exactly the string items of the format;
* `readListHeaderBytes_eq_ok_iff` : `ReadListHeaderBytes` accepts exactly the list headers whose
  payload is there.
-/

namespace DevP2P.Rlp
open DevP2P.Lib Stateful

/-- The decoder: the bytes it has not read yet. -/
structure RlpDecoder where
  view : ByteView
deriving DecidableEq

abbrev DecodeM := EStateM DecodingError RlpDecoder

/-- `RlpDecoder::IsFinished`. -/
def RlpDecoder.isFinished (d : RlpDecoder) : Bool := d.view.isEmpty

/-- `RlpDecoder::Remaining`. -/
def RlpDecoder.remaining (d : RlpDecoder) : ByteView := d.view

/-- `RlpDecoder::IsList`. -/
def RlpDecoder.isList (d : RlpDecoder) : Except DecodingError Bool := do
  rejectIf (d.view = []) .kInputTooShort
  return (Bytes.at d.view 0).toNat ≥ kShortListOffset

/-- `RlpDecoder::IsString`. -/
def RlpDecoder.isString (d : RlpDecoder) : Except DecodingError Bool := do
  rejectIf (d.view = []) .kInputTooShort
  return (Bytes.at d.view 0).toNat < kShortListOffset

/-- `RlpDecoder::PeekHeader`. -/
def RlpDecoder.peekHeader (d : RlpDecoder) : Except DecodingError Header := do
  let (h, _) ← decodeHeaderImpl d.view
  return h

/-- `RlpDecoder::PeekPayloadSizeBytes`. -/
def RlpDecoder.peekPayloadSizeBytes (d : RlpDecoder) : Except DecodingError Nat := do
  let h ← d.peekHeader
  return h.payloadSizeBytes

/-- `RlpDecoder::PeekPayload`. -/
def RlpDecoder.peekPayload (d : RlpDecoder) : Except DecodingError ByteView := do
  let h ← d.peekHeader
  rejectIf h.list .kUnexpectedList
  rejectIf (d.view.length < h.headerSizeBytes + h.payloadSizeBytes) .kInputTooShort
  return (d.view.drop h.headerSizeBytes).take h.payloadSizeBytes

/-- `view_.remove_prefix(n)`. -/
def dropFront (n : Nat) : DecodeM Unit := modify fun d => ⟨d.view.drop n⟩

/-- `RlpDecoder::skip_header_internal`. -/
def skipHeaderInternal : DecodeM Unit := do
  let d ← get
  rejectIf (d.view = []) .kInputTooShort
  let n := headerLen (Bytes.at d.view 0).toNat
  rejectIf (d.view.length < n) .kInputTooShort
  dropFront n

/-- `RlpDecoder::read(Bytes&)`. -/
def readBytes : DecodeM Bytes := do
  let d ← get
  let h ← Stateful.lift d.peekHeader
  rejectIf h.list .kUnexpectedList
  skipHeaderInternal
  let d ← get
  rejectIf (d.view.length < h.payloadSizeBytes) .kInputTooShort
  dropFront h.payloadSizeBytes
  return d.view.take h.payloadSizeBytes

/-- `RlpDecoder::ReadListHeaderBytes`. -/
def readListHeaderBytes : DecodeM Nat := do
  let d ← get
  let h ← Stateful.lift d.peekHeader
  rejectIf (¬ h.list) .kUnexpectedString
  skipHeaderInternal
  return h.payloadSizeBytes

/-- `RlpDecoder::SkipItem`. -/
def skipItem : DecodeM Unit := do
  let d ← get
  let h ← Stateful.lift d.peekHeader
  skipHeaderInternal
  let d ← get
  rejectIf (d.view.length < h.payloadSizeBytes) .kInputTooShort
  dropFront h.payloadSizeBytes

/-- `RlpDecoder::read_integral`. -/
def readIntegral (T : UIntTy) : DecodeM T.Val := do
  let d ← get
  let h ← Stateful.lift d.peekHeader
  rejectIf h.list .kUnexpectedList
  let payloadView := (d.view.drop h.headerSizeBytes).take h.payloadSizeBytes
  rejectIf (h.payloadSizeBytes > 1 ∧ Bytes.at payloadView 0 = 0) .kLeadingZero
  rejectIf (h.payloadSizeBytes > T.sizeof) .kOverflow
  rejectIf (h.payloadSizeBytes = 1 ∧ h.headerSizeBytes > 0
    ∧ (Bytes.at payloadView 0).toNat < kRlpSingleByteThreshold) .kNonCanonicalSize
  rejectIf (d.view.length < h.headerSizeBytes + h.payloadSizeBytes) .kInputTooShort
  let out ← Stateful.lift (fromBigCompact T payloadView)
  dropFront (h.headerSizeBytes + h.payloadSizeBytes)
  return out

/-- `RlpDecoder::read_uint256`. -/
def readUint256 : DecodeM (UIntTy.Val .uint256) := do
  let d ← get
  let h ← Stateful.lift d.peekHeader
  rejectIf h.list .kUnexpectedList
  let payloadView := (d.view.drop h.headerSizeBytes).take h.payloadSizeBytes
  rejectIf (h.payloadSizeBytes > 1 ∧ Bytes.at payloadView 0 = 0) .kLeadingZero
  rejectIf (h.payloadSizeBytes > 32) .kOverflow
  let out ← Stateful.lift (fromBigCompact .uint256 payloadView)
  rejectIf (h.payloadSizeBytes = 1 ∧ out.toNat < kRlpSingleByteThreshold ∧ h.headerSizeBytes > 0)
    .kNonCanonicalSize
  rejectIf (d.view.length < h.headerSizeBytes + h.payloadSizeBytes) .kInputTooShort
  dropFront (h.headerSizeBytes + h.payloadSizeBytes)
  return out

/-- `RlpDecoder::read<T>` at the unsigned integer types. -/
def readUInt : (T : UIntTy) → DecodeM T.Val
  | .uint256 => readUint256
  | .uint64 => readIntegral .uint64
  | .uint32 => readIntegral .uint32
  | .uint16 => readIntegral .uint16
  | .uint8 => readIntegral .uint8

/-- The value `read_bool` gives to an item with the header `h`, the payload `payloadView` and the first byte `first`. -/
def boolOf (h : Header) (payloadView : ByteView) (first : UInt8) : Except DecodingError Bool :=
  if h.payloadSizeBytes = 1 then
    if Bytes.at payloadView 0 = 1 then .ok true
    else if Bytes.at payloadView 0 = 0 then .ok false
    else .error .kOverflow
  else if h.payloadSizeBytes = 0 ∧ h.headerSizeBytes = 1 ∧ first = kEmptyStringCode then .ok false
  else .error .kOverflow

/-- `RlpDecoder::read_bool`. -/
def readBool : DecodeM Bool := do
  let d ← get
  let h ← Stateful.lift d.peekHeader
  rejectIf h.list .kUnexpectedList
  rejectIf (d.view.length < h.headerSizeBytes + h.payloadSizeBytes) .kInputTooShort
  let payloadView := (d.view.drop h.headerSizeBytes).take h.payloadSizeBytes
  let out ← Stateful.lift (boolOf h payloadView (Bytes.at d.view 0))
  dropFront (h.headerSizeBytes + h.payloadSizeBytes)
  return out

/-- `RlpDecoder::read` into an array of `n` bytes. -/
def readArray (n : Nat) : DecodeM (FixedBytes n) := do
  let d ← get
  let h ← Stateful.lift d.peekHeader
  rejectIf h.list .kUnexpectedList
  let singleByteLiteral := h.payloadSizeBytes = 1 ∧ h.headerSizeBytes = 0
  rejectIf (h.payloadSizeBytes ≠ n ∧ ¬ (n = 1 ∧ singleByteLiteral)) .kUnexpectedLength
  skipHeaderInternal
  let d ← get
  rejectIf (d.view.length < n) .kInputTooShort
  dropFront n
  return FixedBytes.load n d.view

/-! ## Headers -/

theorem peekHeader_eq_ok_iff {v : ByteView} {h : Header} :
    (RlpDecoder.mk v).peekHeader = .ok h ↔ ∃ w, CanonicalHeader v h w := by
  unfold RlpDecoder.peekHeader
  rw [Outcome.bind_eq_ok]
  constructor
  · rintro ⟨⟨h', w⟩, hok, hh⟩
    obtain rfl := Outcome.pure_eq_ok.mp hh
    exact ⟨w, decodeHeaderImpl_eq_ok_iff.mp hok⟩
  · rintro ⟨w, hc⟩
    exact ⟨(h, w), decodeHeaderImpl_eq_ok_iff.mpr hc, rfl⟩

/-! ## The kind of the next item -/

theorem isList_headerBytes {n : Nat} (hn : n < kSizeModulus) (r : ByteView) :
    (RlpDecoder.mk (headerBytes true n ++ r)).isList = .ok true := by
  obtain ⟨x, w, hv⟩ := List.exists_cons_of_ne_nil
    (show headerBytes true n ++ r ≠ [] by simp [headerBytes_ne_nil])
  have hx : 192 ≤ x.toNat := by
    rcases (cons_eq_headerBytes_iff hn).mp hv.symm with ⟨-, hx, -⟩ | ⟨-, hx, -⟩ <;> simp at hx <;> omega
  unfold RlpDecoder.isList
  rw [hv, Outcome.rejectIf_bind_of_not (by simp)]
  simp [kShortListOffset, pure, Except.pure, hx]

theorem isList_encodeString {s : Bytes} (hs : s.length < kSizeModulus) (r : ByteView) :
    (RlpDecoder.mk (encodeString s ++ r)).isList = .ok false := by
  obtain ⟨x, w, hv⟩ := List.exists_cons_of_ne_nil
    (show encodeString s ++ r ≠ [] from fun h =>
      absurd (length_encodeString_pos s) (by rw [(List.append_eq_nil_iff.mp h).1]; decide))
  have hx : x.toNat < 192 := by
    by_cases h1 : s.length = 1 ∧ (Bytes.at s 0).toNat < 128
    · obtain ⟨y, rfl⟩ := List.length_eq_one_iff.mp h1.1
      rw [encodeString_of_single h1] at hv
      obtain ⟨rfl, -⟩ := List.cons.inj hv
      have : y.toNat < 128 := h1.2
      omega
    · have hle := byteLength_le_eight hs
      rw [encodeString_of_not_single h1, List.append_assoc] at hv
      rcases (cons_eq_headerBytes_iff hs).mp hv.symm with ⟨hlt, hx, -⟩ | ⟨-, hx, -⟩
      · simp only [Bool.false_eq_true, if_false] at hx
        omega
      · simp only [Bool.false_eq_true, if_false] at hx
        omega
  unfold RlpDecoder.isList
  rw [hv, Outcome.rejectIf_bind_of_not (by simp)]
  simp [kShortListOffset, pure, Except.pure, hx]

/-! ## Reads -/

theorem peekHeader_bind_eq_ok {α : Type} {f : Header → DecodeM α} {v : ByteView} {a : α} {d : RlpDecoder} :
    (Stateful.lift (RlpDecoder.mk v).peekHeader >>= f) ⟨v⟩ = .ok a d ↔
      ∃ h w, CanonicalHeader v h w ∧ f h ⟨v⟩ = .ok a d := by
  rw [bind_eq_ok]
  constructor
  · rintro ⟨h, d', hpeek, hok⟩
    obtain ⟨hp, rfl⟩ := lift_eq_ok.mp hpeek
    obtain ⟨w, hc⟩ := peekHeader_eq_ok_iff.mp hp
    exact ⟨h, w, hc, hok⟩
  · rintro ⟨h, w, hc, hok⟩
    exact ⟨h, ⟨v⟩, lift_eq_ok.mpr ⟨peekHeader_eq_ok_iff.mpr ⟨w, hc⟩, rfl⟩, hok⟩

theorem dropFront_apply (n : Nat) (v : ByteView) : dropFront n ⟨v⟩ = .ok () ⟨v.drop n⟩ := rfl

theorem dropFront_pure_eq_ok {α : Type} {n : Nat} {a b : α} {v r : ByteView} :
    (dropFront n >>= fun _ => pure a) ⟨v⟩ = .ok b ⟨r⟩ ↔ a = b ∧ v.drop n = r := by
  rw [bind_of_ok (dropFront_apply _ _), pure_apply]
  simp only [EStateM.Result.ok.injEq, RlpDecoder.mk.injEq]

theorem skipHeaderInternal_run {v w : ByteView} {h : Header} (hc : CanonicalHeader v h w) :
    skipHeaderInternal ⟨v⟩ = .ok () ⟨w⟩ := by
  unfold skipHeaderInternal
  rw [get_bind, rejectIf_bind_of_not hc.ne_nil, rejectIf_bind_of_not,
    dropFront_apply]
  · simp only [hc.headerLen_eq, hc.drop_eq]
  · simp only [hc.headerLen_eq, hc.length_eq]
    omega

/-- `read(Bytes&)` takes the payload behind a canonical string header. -/
theorem readBytes_eq_ok_iff_header {v r : ByteView} {s : Bytes} :
    readBytes ⟨v⟩ = .ok s ⟨r⟩ ↔
      ∃ h w, CanonicalHeader v h w ∧ h.list = false ∧ w = s ++ r ∧ s.length = h.payloadSizeBytes := by
  unfold readBytes
  rw [get_bind, peekHeader_bind_eq_ok]
  constructor
  · rintro ⟨h, w, hc, hok⟩
    obtain ⟨hlist, hok⟩ := rejectIf_bind_eq_ok.mp hok
    rw [bind_of_ok (skipHeaderInternal_run hc), get_bind] at hok
    obtain ⟨-, hok⟩ := rejectIf_bind_eq_ok.mp hok
    obtain ⟨rfl, rfl⟩ := dropFront_pure_eq_ok.mp hok
    exact ⟨h, w, hc, by simpa using hlist, (List.take_append_drop _ _).symm, hc.length_payload⟩
  · rintro ⟨h, w, hc, hlist, rfl, hs⟩
    refine ⟨h, _, hc, ?_⟩
    rw [rejectIf_bind_of_not (by simp [hlist]), bind_of_ok (skipHeaderInternal_run hc),
      get_bind, rejectIf_bind_of_not (not_lt.mpr hc.payload_le),
      bind_of_ok (dropFront_apply _ _), pure_apply]
    simp only [← hs, List.take_left, List.drop_left]

theorem readListHeaderBytes_eq_ok_iff_header {v r : ByteView} {n : Nat} :
    readListHeaderBytes ⟨v⟩ = .ok n ⟨r⟩ ↔
      ∃ h, CanonicalHeader v h r ∧ h.list = true ∧ h.payloadSizeBytes = n := by
  unfold readListHeaderBytes
  rw [get_bind, peekHeader_bind_eq_ok]
  constructor
  · rintro ⟨h, w, hc, hok⟩
    obtain ⟨hlist, hok⟩ := rejectIf_bind_eq_ok.mp hok
    rw [bind_of_ok (skipHeaderInternal_run hc), pure_apply] at hok
    simp only [EStateM.Result.ok.injEq, RlpDecoder.mk.injEq] at hok
    obtain ⟨rfl, rfl⟩ := hok
    exact ⟨h, hc, by simpa using hlist, rfl⟩
  · rintro ⟨h, hc, hlist, rfl⟩
    refine ⟨h, _, hc, ?_⟩
    rw [rejectIf_bind_of_not (by simp [hlist]), bind_of_ok (skipHeaderInternal_run hc),
      pure_apply]

/-! ## Items -/

theorem canonicalHeader_encodeString {s : Bytes} (hs : s.length < kSizeModulus) (r : ByteView) :
    ∃ h, CanonicalHeader (encodeString s ++ r) h (s ++ r) ∧ h.list = false ∧
      h.payloadSizeBytes = s.length := by
  by_cases h1 : s.length = 1 ∧ (Bytes.at s 0).toNat < 128
  · obtain ⟨x, rfl⟩ := List.length_eq_one_iff.mp h1.1
    rw [encodeString_of_single h1]
    exact ⟨_, .single h1.2, rfl, rfl⟩
  · rw [encodeString_of_not_single h1, List.append_assoc]
    refine ⟨_, .header hs (by simp) ?_, rfl, rfl⟩
    intro _ hone
    rw [Bytes.at_append_left (by omega)]
    exact not_lt.mp fun hlt => h1 ⟨hone, hlt⟩

theorem eq_encodeString_of_canonicalHeader {v r : ByteView} {s : Bytes} {h : Header}
    (hc : CanonicalHeader v h (s ++ r)) (hl : h.list = false) (hs : s.length = h.payloadSizeBytes) :
    s.length < kSizeModulus ∧ v = encodeString s ++ r := by
  generalize hw : s ++ r = w at hc
  cases hc with
  | @single x r' hx =>
      obtain ⟨y, rfl⟩ := List.length_eq_one_iff.mp hs
      obtain ⟨rfl, rfl⟩ := List.cons.inj hw
      have h1 : [y].length = 1 ∧ (Bytes.at [y] 0).toNat < 128 := ⟨rfl, hx⟩
      rw [encodeString_of_single h1]
      exact ⟨Nat.one_lt_two_pow (by decide), rfl⟩
  | @header list n w hn hle hb =>
      subst hw hl
      simp only at hs
      refine ⟨hs ▸ hn, ?_⟩
      rw [encodeString_of_not_single, hs, List.append_assoc]
      rintro ⟨h1, h2⟩
      have := hb rfl (by omega)
      rw [Bytes.at_append_left (by omega)] at this
      omega

/-- **`read(Bytes&)` accepts exactly the string items.** -/
theorem readBytes_eq_ok_iff {v r : ByteView} {s : Bytes} :
    readBytes ⟨v⟩ = .ok s ⟨r⟩ ↔ s.length < kSizeModulus ∧ v = encodeString s ++ r := by
  rw [readBytes_eq_ok_iff_header]
  constructor
  · rintro ⟨h, w, hc, hl, rfl, hs⟩
    exact eq_encodeString_of_canonicalHeader hc hl hs
  · rintro ⟨hs, rfl⟩
    obtain ⟨h, hc, hl, hp⟩ := canonicalHeader_encodeString hs r
    exact ⟨h, s ++ r, hc, hl, rfl, hp.symm⟩

/-- **`ReadListHeaderBytes` accepts exactly the list headers whose payload is there.** -/
theorem readListHeaderBytes_eq_ok_iff {v r : ByteView} {n : Nat} :
    readListHeaderBytes ⟨v⟩ = .ok n ⟨r⟩ ↔
      n < kSizeModulus ∧ n ≤ r.length ∧ v = headerBytes true n ++ r := by
  rw [readListHeaderBytes_eq_ok_iff_header]
  constructor
  · rintro ⟨h, hc, hl, rfl⟩
    cases hc with
    | single => simp at hl
    | header hn hw _ =>
        obtain rfl := hl
        exact ⟨hn, hw, rfl⟩
  · rintro ⟨hn, hw, rfl⟩
    exact ⟨_, .header hn hw nofun, rfl, rfl⟩

theorem eq_encodeList_of_canonicalHeader {v w : ByteView} {h : Header} (hc : CanonicalHeader v h w)
    (hl : h.list = true) :
    (w.take h.payloadSizeBytes).length < kSizeModulus ∧
      v = encodeList (w.take h.payloadSizeBytes) ++ w.drop h.payloadSizeBytes := by
  obtain ⟨hn, -, hv⟩ := readListHeaderBytes_eq_ok_iff.mp (readListHeaderBytes_eq_ok_iff_header.mpr ⟨h, hc, hl, rfl⟩)
  rw [encodeList, hc.length_payload, List.append_assoc, List.take_append_drop]
  exact ⟨hn, hv⟩

end DevP2P.Rlp
