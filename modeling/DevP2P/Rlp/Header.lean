import DevP2P.Rlp.Endian
import DevP2P.Rlp.Format

/-!
# Item headers (`decode_header_impl` in `rlp/rlp_decoder.cpp`)

* `decodeHeaderImpl` : the header decoder, with one branch for each of the five classes of first bytes;
* `headerLen` : the header length, as `skip_header_internal` computes it again from the first byte;
* `CanonicalHeader v h w` : `v` starts with the canonical header `h`, and `w` is what follows it;
* `decodeHeaderImpl_eq_ok_iff` : `decode_header_impl` accepts exactly the canonical headers.
-/

namespace DevP2P.Rlp
open DevP2P.Lib

/-- The two long-form branches of `decode_header_impl`; `b` is the first byte. -/
def decodeLongHeader (list : Bool) (longOffset maxShortLen : Nat) (v : ByteView) (b : Nat) :
    Except DecodingError (Header × ByteView) := do
  let headerSizeBytes := 1 + (b - longOffset)
  rejectIf (v.length < headerSizeBytes) .kInputTooShort
  let lenBytes := (v.drop 1).take (headerSizeBytes - 1)
  let len64 ← fromBigCompact .uint64 lenBytes
  -- a length of at most 55 must use the short form
  rejectIf (len64.toNat ≤ maxShortLen) .kNonCanonicalSize
  return (⟨list, len64.toNat, headerSizeBytes⟩, v.drop headerSizeBytes)

/-- The chain of branches of `decode_header_impl`. -/
def decodeHeaderForm (v : ByteView) (b : Nat) : Except DecodingError (Header × ByteView) := do
  if b < kShortStringOffset then
    -- the header is implicit: the payload is the byte itself
    return (⟨false, 1, 0⟩, v)
  else if b ≤ kMaxShortStringLen + kShortStringOffset then
    let payloadSizeBytes := b - kShortStringOffset
    rejectIf (payloadSizeBytes = 1 ∧ v.length < kSingleByteStringSize) .kInputTooShort
    -- a byte below 0x80 must be encoded as itself
    rejectIf (payloadSizeBytes = 1 ∧ (Bytes.at v 1).toNat < kShortStringOffset) .kNonCanonicalSize
    return (⟨false, payloadSizeBytes, 1⟩, v.drop 1)
  else if b < kShortListOffset then
    decodeLongHeader false kLongStringOffset kMaxShortStringLen v b
  else if b ≤ kMaxShortListLen + kShortListOffset then
    return (⟨true, b - kShortListOffset, 1⟩, v.drop 1)
  else
    decodeLongHeader true kLongListOffset kMaxShortListLen v b

/-- `decode_header_impl`: the header, and the view it leaves behind. -/
def decodeHeaderImpl (v : ByteView) : Except DecodingError (Header × ByteView) := do
  rejectIf (v = []) .kInputTooShort
  let b := (Bytes.at v 0).toNat
  -- reserved bytes as single bytes are always invalid
  rejectIf (v.length = 1 ∧ b ≥ 0xf9) .kMalformedHeader
  let (h, w) ← decodeHeaderForm v b
  rejectIf (b ≥ kShortStringOffset ∧ w.length < h.payloadSizeBytes) .kInputTooShort
  return (h, w)

/-- The header length `skip_header_internal` computes from the first byte. -/
def headerLen (b : Nat) : Nat :=
  if b < kShortStringOffset then 0
  else if b ≤ kMaxShortStringLen + kShortStringOffset then 1
  else if b < kShortListOffset then 1 + (b - kLongStringOffset)
  else if b ≤ kMaxShortListLen + kShortListOffset then 1
  else 1 + (b - kLongListOffset)

/-! ## Canonical headers -/

/-- `v` starts with the canonical header `h`, and `w` is the view behind it. -/
inductive CanonicalHeader : ByteView → Header → ByteView → Prop
  | single {x : UInt8} {r : ByteView} (hx : x.toNat < 128) :
      CanonicalHeader (x :: r) ⟨false, 1, 0⟩ (x :: r)
  | header {list : Bool} {n : Nat} {w : ByteView} (hn : n < kSizeModulus) (hw : n ≤ w.length)
      (hb : list = false → n = 1 → 128 ≤ (Bytes.at w 0).toNat) :
      CanonicalHeader (headerBytes list n ++ w) ⟨list, n, (headerBytes list n).length⟩ w

/-- A compact length field with a value above `55` is the shortest numeral of it. -/
theorem beBytes_of_isCompact {field : ByteView} (hc : IsCompact field) (h : 55 < beLoad field) :
    beBytes (beLoad field) = field := by
  apply beBytes_beLoad
  right
  intro h0
  rcases Nat.lt_or_ge 1 field.length with hlong | hshort
  · exact hc.2 hlong h0
  · rcases field with _ | ⟨x, _ | ⟨y, field⟩⟩
    · simp at h
    · obtain rfl : x = 0 := h0
      simp at h
    · simp at hshort

/-- The long form is accepted exactly when the bytes behind the first one start with the shortest
numeral of a length above `55`. -/
theorem decodeLongHeader_eq_ok_iff {list : Bool} {longOffset b : Nat} {x : UInt8} {r w : ByteView}
    {h : Header} :
    decodeLongHeader list longOffset 55 (x :: r) b = .ok (h, w) ↔
      ∃ n, 56 ≤ n ∧ n < kSizeModulus ∧ byteLength n = b - longOffset ∧ r = beBytes n ++ w ∧
        h = ⟨list, n, 1 + byteLength n⟩ := by
  unfold decodeLongHeader
  simp only [List.length_cons, List.drop_succ_cons, List.drop_zero, Nat.add_comm 1,
    Nat.add_sub_cancel]
  rw [Outcome.rejectIf_bind_eq_ok, Outcome.bind_eq_ok]
  constructor
  · rintro ⟨hlen, len64, hlen64, hrest⟩
    obtain ⟨hge, hrest⟩ := Outcome.rejectIf_bind_eq_ok.mp hrest
    obtain ⟨hcompact, hload⟩ := fromBigCompact_eq_ok_iff.mp hlen64
    have hbytes : beBytes len64.toNat = r.take (b - longOffset) := by
      rw [← hload]
      exact beBytes_of_isCompact hcompact (by omega)
    have hbl : byteLength len64.toNat = b - longOffset := by
      rw [← length_beBytes, hbytes, List.length_take]
      omega
    have hpair := Outcome.pure_eq_ok.mp hrest
    simp only [Prod.mk.injEq] at hpair
    refine ⟨len64.toNat, by omega, len64.isLt, hbl, ?_, by rw [hbl, ← hpair.1]⟩
    rw [hbytes, ← hpair.2, List.take_append_drop]
  · rintro ⟨n, hge, hlt, hbl, rfl, rfl⟩
    have htake : (beBytes n ++ w).take (b - longOffset) = beBytes n := by
      rw [← hbl, ← length_beBytes, List.take_left]
    have hval : (BitVec.ofNat (8 * UIntTy.sizeof .uint64) n).toNat = n := UIntTy.toNat_ofNat hlt
    have hcompact : IsCompact (beBytes n) := by
      refine ⟨?_, fun _ => at_beBytes_zero_ne (by omega)⟩
      have := byteLength_le_eight hlt
      rw [length_beBytes]
      unfold kUint256Size
      omega
    refine ⟨by simp; omega, BitVec.ofNat _ n, ?_, Outcome.rejectIf_bind_eq_ok.mpr ⟨by omega, ?_⟩⟩
    · rw [htake]
      exact fromBigCompact_eq_ok_iff.mpr ⟨hcompact, by rw [beLoad_beBytes, hval]⟩
    · rw [hval, ← hbl, ← length_beBytes, List.drop_left]
      rfl

theorem cons_eq_headerBytes_iff {list : Bool} {n : Nat} (hn : n < kSizeModulus) {x : UInt8} {r w : ByteView} :
    x :: r = headerBytes list n ++ w ↔
      (n < 56 ∧ x.toNat = (if list then 192 else 128) + n ∧ r = w) ∨
      (56 ≤ n ∧ x.toNat = (if list then 247 else 183) + byteLength n ∧ r = beBytes n ++ w) := by
  have hle := byteLength_le_eight hn
  have hbyte : ∀ k : Nat, k < 256 → (x = UInt8.ofNat k ↔ x.toNat = k) := by
    intro k hk
    rw [← UInt8.toNat_inj, UInt8.toNat_ofNat', Nat.mod_eq_of_lt hk]
  rcases Nat.lt_or_ge n 56 with h | h
  · rw [headerBytes_of_lt h, List.singleton_append, List.cons.injEq, hbyte _ (by split <;> omega)]
    simp only [h, not_le.mpr h, true_and, false_and, or_false]
  · rw [headerBytes_of_ge h, List.cons_append, List.cons.injEq, hbyte _ (by split <;> omega)]
    simp only [h, not_lt.mpr h, true_and, false_and, false_or]

theorem decodeHeaderForm_sound {x : UInt8} {r w : ByteView} {h : Header}
    (hok : decodeHeaderForm (x :: r) x.toNat = .ok (h, w)) :
    (x.toNat < 128 ∧ h = ⟨false, 1, 0⟩ ∧ w = x :: r) ∨
      ∃ list n, n < kSizeModulus ∧ x :: r = headerBytes list n ++ w ∧
        h = ⟨list, n, (headerBytes list n).length⟩ ∧
        (list = false → n = 1 → 128 ≤ (Bytes.at w 0).toNat) := by
  have hshort : ∀ n, n < 56 → n < kSizeModulus := fun n hn => lt_trans hn (by decide)
  unfold decodeHeaderForm at hok
  split_ifs at hok with h1 h2 h3 h4
  · have hpair := Outcome.pure_eq_ok.mp hok
    simp only [Prod.mk.injEq] at hpair
    exact .inl ⟨h1, hpair.1.symm, hpair.2.symm⟩
  · unfold kShortStringOffset at h1
    unfold kMaxShortStringLen kShortStringOffset at h2
    obtain ⟨-, hok⟩ := Outcome.rejectIf_bind_eq_ok.mp hok
    obtain ⟨hone, hok⟩ := Outcome.rejectIf_bind_eq_ok.mp hok
    have hpair := Outcome.pure_eq_ok.mp hok
    simp only [Prod.mk.injEq, List.drop_succ_cons, List.drop_zero] at hpair
    obtain ⟨rfl, rfl⟩ := hpair
    have hn : x.toNat - kShortStringOffset < 56 := by unfold kShortStringOffset; omega
    refine .inr ⟨false, x.toNat - kShortStringOffset, hshort _ hn, ?_, ?_, ?_⟩
    · refine (cons_eq_headerBytes_iff (hshort _ hn)).mpr (.inl ⟨hn, ?_, rfl⟩)
      simp only [kShortStringOffset, Bool.false_eq_true, if_false]
      omega
    · rw [length_headerBytes_of_lt hn]
    · intro _ h1
      exact not_lt.mp fun hlt => hone ⟨h1, hlt⟩
  · unfold kMaxShortStringLen kShortStringOffset at h2
    unfold kShortListOffset at h3
    obtain ⟨n, hge, hlt, hbl, rfl, rfl⟩ := decodeLongHeader_eq_ok_iff.mp hok
    refine .inr ⟨false, n, hlt, ?_, ?_, fun _ h1 => by omega⟩
    · refine (cons_eq_headerBytes_iff hlt).mpr (.inr ⟨hge, ?_, rfl⟩)
      simp only [hbl, kLongStringOffset, Bool.false_eq_true, if_false]
      omega
    · rw [length_headerBytes_of_ge hge]
  · unfold kShortListOffset at h3
    unfold kMaxShortListLen kShortListOffset at h4
    have hpair := Outcome.pure_eq_ok.mp hok
    simp only [Prod.mk.injEq, List.drop_succ_cons, List.drop_zero] at hpair
    obtain ⟨rfl, rfl⟩ := hpair
    have hn : x.toNat - kShortListOffset < 56 := by unfold kShortListOffset; omega
    refine .inr ⟨true, x.toNat - kShortListOffset, hshort _ hn, ?_, ?_, nofun⟩
    · refine (cons_eq_headerBytes_iff (hshort _ hn)).mpr (.inl ⟨hn, ?_, rfl⟩)
      simp only [kShortListOffset, if_true]
      omega
    · rw [length_headerBytes_of_lt hn]
  · unfold kMaxShortListLen kShortListOffset at h4
    obtain ⟨n, hge, hlt, hbl, rfl, rfl⟩ := decodeLongHeader_eq_ok_iff.mp hok
    refine .inr ⟨true, n, hlt, ?_, ?_, nofun⟩
    · refine (cons_eq_headerBytes_iff hlt).mpr (.inr ⟨hge, ?_, rfl⟩)
      simp only [hbl, kLongListOffset, if_true]
      omega
    · rw [length_headerBytes_of_ge hge]

theorem decodeHeaderForm_complete {list : Bool} {n : Nat} {x : UInt8} {r w : ByteView}
    (hn : n < kSizeModulus) (hv : x :: r = headerBytes list n ++ w) (hw : n ≤ w.length)
    (hb : list = false → n = 1 → 128 ≤ (Bytes.at w 0).toNat) :
    decodeHeaderForm (x :: r) x.toNat = .ok (⟨list, n, (headerBytes list n).length⟩, w) := by
  have hle := byteLength_le_eight hn
  unfold decodeHeaderForm
  rcases (cons_eq_headerBytes_iff hn).mp hv with ⟨hlt, hx, rfl⟩ | ⟨hge, hx, rfl⟩
  · rw [length_headerBytes_of_lt hlt]
    cases list with
    | false =>
        simp only [Bool.false_eq_true, if_false] at hx
        rw [if_neg (by unfold kShortStringOffset; omega),
          if_pos (by unfold kShortStringOffset kMaxShortStringLen; omega)]
        have hsub : x.toNat - kShortStringOffset = n := by unfold kShortStringOffset; omega
        rw [Outcome.rejectIf_bind_of_not, Outcome.rejectIf_bind_of_not, hsub]
        · rfl
        · rw [hsub]
          rintro ⟨h1, h2⟩
          exact absurd (hb rfl h1) (not_le.mpr h2)
        · rw [hsub]
          rintro ⟨h1, h2⟩
          rw [h1] at hw
          simp only [kSingleByteStringSize, List.length_cons] at h2
          omega
    | true =>
        simp only [if_true] at hx
        rw [if_neg (by unfold kShortStringOffset; omega),
          if_neg (by unfold kShortStringOffset kMaxShortStringLen; omega),
          if_neg (by unfold kShortListOffset; omega),
          if_pos (by unfold kShortListOffset kMaxShortListLen; omega),
          show x.toNat - kShortListOffset = n by unfold kShortListOffset; omega]
        rfl
  · have hpos := byteLength_pos (n := n) (by omega)
    rw [length_headerBytes_of_ge hge]
    cases list with
    | false =>
        simp only [Bool.false_eq_true, if_false] at hx
        rw [if_neg (by unfold kShortStringOffset; omega),
          if_neg (by unfold kShortStringOffset kMaxShortStringLen; omega),
          if_pos (by unfold kShortListOffset; omega)]
        exact decodeLongHeader_eq_ok_iff.mpr
          ⟨n, hge, hn, by unfold kLongStringOffset; omega, rfl, rfl⟩
    | true =>
        simp only [if_true] at hx
        rw [if_neg (by unfold kShortStringOffset; omega),
          if_neg (by unfold kShortStringOffset kMaxShortStringLen; omega),
          if_neg (by unfold kShortListOffset; omega),
          if_neg (by unfold kShortListOffset kMaxShortListLen; omega)]
        exact decodeLongHeader_eq_ok_iff.mpr
          ⟨n, hge, hn, by unfold kLongListOffset; omega, rfl, rfl⟩

/-- **`decode_header_impl` accepts exactly the canonical headers.** -/
theorem decodeHeaderImpl_eq_ok_iff {v w : ByteView} {h : Header} :
    decodeHeaderImpl v = .ok (h, w) ↔ CanonicalHeader v h w := by
  rcases v with _ | ⟨x, r⟩
  · refine ⟨nofun, ?_⟩
    generalize hv : ([] : ByteView) = v
    intro hc
    cases hc with
    | single => simp at hv
    | @header list n =>
        unfold headerBytes at hv
        split_ifs at hv <;> simp at hv
  · have hx := x.toNat_lt
    unfold decodeHeaderImpl
    rw [Outcome.rejectIf_bind_of_not (by simp), Outcome.rejectIf_bind_eq_ok, Outcome.bind_eq_ok]
    constructor
    · rintro ⟨-, ⟨h', w'⟩, hform, hok⟩
      obtain ⟨hlen, hok⟩ := Outcome.rejectIf_bind_eq_ok.mp hok
      obtain ⟨rfl, rfl⟩ := Prod.mk.inj (Outcome.pure_eq_ok.mp hok)
      rcases decodeHeaderForm_sound hform with ⟨hlt, rfl, rfl⟩ | ⟨list, n, hn, hv, rfl, hb⟩
      · exact .single hlt
      · rw [hv]
        refine .header hn ?_ hb
        have hge : 128 ≤ x.toNat := by
          rcases (cons_eq_headerBytes_iff hn).mp hv with ⟨-, h, -⟩ | ⟨-, h, -⟩ <;> split at h <;> omega
        exact not_lt.mp fun hlt => hlen ⟨hge, hlt⟩
    · generalize hv : x :: r = v
      intro hc
      cases hc with
      | @single y r' hlt =>
          obtain ⟨rfl, rfl⟩ := List.cons.inj hv
          refine ⟨?_, (⟨false, 1, 0⟩, x :: r), ?_, ?_⟩
          · rintro ⟨-, hge⟩
            simp at hge
            omega
          · unfold decodeHeaderForm
            exact if_pos hlt
          · refine Outcome.rejectIf_bind_eq_ok.mpr ⟨?_, rfl⟩
            rintro ⟨-, hnil⟩
            simp at hnil
      | @header list n w hn hw hb =>
          rw [← hv]
          refine ⟨?_, (⟨list, n, _⟩, w), decodeHeaderForm_complete hn hv hw hb, ?_⟩
          · -- a first byte above 0xf8 announces a length field of two bytes or more
            rintro ⟨hlen, hge⟩
            simp only [List.length_cons, Bytes.at_cons_zero] at hlen hge
            rcases (cons_eq_headerBytes_iff hn).mp hv with ⟨hlt, hx, -⟩ | ⟨hbig, -, rfl⟩
            · split at hx <;> omega
            · have hpos := byteLength_pos (n := n) (by omega)
              simp only [List.length_append, length_beBytes] at hlen
              omega
          · refine Outcome.rejectIf_bind_eq_ok.mpr ⟨?_, rfl⟩
            rintro ⟨-, hlt⟩
            exact absurd hlt (not_lt.mpr hw)

namespace CanonicalHeader

variable {v w : ByteView} {h : Header}

theorem header_unique {h' : Header} {w' : ByteView} (hc : CanonicalHeader v h w)
    (hc' : CanonicalHeader v h' w') : h = h' := by
  have he := (decodeHeaderImpl_eq_ok_iff.mpr hc).symm.trans (decodeHeaderImpl_eq_ok_iff.mpr hc')
  exact (Prod.mk.inj (Except.ok.inj he)).1

theorem ne_nil (hc : CanonicalHeader v h w) : v ≠ [] := by
  cases hc with
  | single => simp
  | @header list n => simp [headerBytes_ne_nil]

theorem length_eq (hc : CanonicalHeader v h w) : v.length = h.headerSizeBytes + w.length := by
  cases hc with
  | single => simp
  | header => simp

theorem drop_eq (hc : CanonicalHeader v h w) : v.drop h.headerSizeBytes = w := by
  cases hc with
  | single => rfl
  | header => simp

theorem payload_le (hc : CanonicalHeader v h w) : h.payloadSizeBytes ≤ w.length := by
  cases hc with
  | single => simp
  | header _ hw _ => exact hw

theorem length_payload (hc : CanonicalHeader v h w) : (w.take h.payloadSizeBytes).length = h.payloadSizeBytes := by
  rw [List.length_take, min_eq_left hc.payload_le]

theorem total_pos (hc : CanonicalHeader v h w) : 0 < h.headerSizeBytes + h.payloadSizeBytes := by
  cases hc with
  | single hx => decide
  | header hn hw hb => exact Nat.add_pos_left (List.length_pos_iff.mpr (headerBytes_ne_nil _ _)) _

/-- The header length `skip_header_internal` finds is the one the header was decoded with. -/
theorem headerLen_eq (hc : CanonicalHeader v h w) :
    headerLen (Bytes.at v 0).toNat = h.headerSizeBytes := by
  cases hc with
  | single hx => exact if_pos hx
  | @header list n w hn hw hb =>
      obtain ⟨x, r, hv⟩ := List.exists_cons_of_ne_nil
        (show headerBytes list n ++ w ≠ [] by simp [headerBytes_ne_nil])
      have hle := byteLength_le_eight hn
      simp only [hv, Bytes.at_cons_zero]
      unfold headerLen kShortStringOffset kShortListOffset kLongStringOffset kLongListOffset
        kMaxShortStringLen kMaxShortListLen
      rcases (cons_eq_headerBytes_iff hn).mp hv.symm with ⟨hlt, hx, -⟩ | ⟨hge, hx, -⟩
      · rw [length_headerBytes_of_lt hlt]
        cases list <;> simp only [Bool.false_eq_true, if_false, if_true] at hx <;> split_ifs <;> omega
      · have hpos := byteLength_pos (n := n) (by omega)
        rw [length_headerBytes_of_ge hge]
        cases list <;> simp only [Bool.false_eq_true, if_false, if_true] at hx <;> split_ifs <;> omega

end CanonicalHeader

end DevP2P.Rlp
