import DevP2P.Rlp.Decoder
import DevP2P.Rlp.Encoder

/-!
# Integers

The encoder writes an integer with a byte loop unrolled for each width, the decoder reads it through
a padded 256-bit load; both are the string item of the shortest big-endian numeral.

* `significantBytes_byteShifts` : the unrolled loops write the shortest numeral;
* `addUInt_run` : `add(n)` appends the string item of `to_big_compact(n)`;
* `readUInt_eq_ok_iff_readBytes` : `read(T&)` is `read(Bytes&)` followed by `from_big_compact`;
* `integer_codec_exact` : what `read(T&)` accepts is what `add(n)` appends, and the byte `0x00`.
-/

namespace DevP2P.Rlp
open DevP2P.Lib Stateful

/-! ## Writing -/

/-- The shifts of the unrolled loop for a type of `k + 1` bytes. -/
def byteShifts : Nat → List Nat
  | 0 => []
  | k + 1 => 8 * (k + 1) :: byteShifts k

theorem shiftRight_eight_mul (n k : Nat) : n >>> (8 * k) = n / 256 ^ k := by
  rw [Nat.shiftRight_eq_div_pow, Nat.pow_mul]

theorem map_byteShifts (k val : Nat) :
    (byteShifts k).map (fun s => UInt8.ofNat (val >>> s)) ++ [UInt8.ofNat (val &&& 0xFF)]
      = beStore (k + 1) val := by
  induction k with
  | zero =>
      have hlow : UInt8.ofNat (val &&& 0xFF) = UInt8.ofNat val := by
        apply uint8_eq_of_toNat
        rw [UInt8.toNat_ofNat', UInt8.toNat_ofNat', show 0xFF = 2 ^ 8 - 1 by norm_num,
          Nat.and_two_pow_sub_one_eq_mod, Nat.mod_mod]
      simp [byteShifts, beStore, hlow]
  | succ k ih =>
      rw [byteShifts, List.map_cons, List.cons_append, ih, Nat.add_comm (k + 1) 1, beStore_add 1,
        shiftRight_eight_mul]
      rfl

theorem mem_byteShifts_le {k s : Nat} (h : s ∈ byteShifts k) : s ≤ 8 * k := by
  induction k with
  | zero => simp [byteShifts] at h
  | succ k ih =>
      rw [byteShifts, List.mem_cons] at h
      rcases h with rfl | h
      · exact le_rfl
      · have := ih h
        omega

theorem significantBytes_byteShifts {k val : Nat} (h0 : val ≠ 0) (h : val < 256 ^ (k + 1)) :
    significantBytes (byteShifts k) val = beBytes val := by
  induction k with
  | zero => exact (map_byteShifts 0 val).trans (beBytes_of_lt_256 h0 (by simpa using h)).symm
  | succ k ih =>
      by_cases hz : val >>> (8 * (k + 1)) = 0
      · have hlt : val < 256 ^ (k + 1) := by
          rw [shiftRight_eight_mul] at hz
          exact (Nat.div_eq_zero_iff_lt (by positivity)).mp hz
        rw [← ih hlt]
        simp [significantBytes, byteShifts, hz]
      · have hall : (byteShifts (k + 1)).filter (fun s => decide (val >>> s ≠ 0)) = byteShifts (k + 1) := by
          rw [List.filter_eq_self]
          intro s hs
          have hle := mem_byteShifts_le hs
          rw [decide_eq_true_eq]
          intro h0
          apply hz
          rw [show 8 * (k + 1) = s + (8 * (k + 1) - s) by omega, Nat.shiftRight_add, h0, Nat.zero_shiftRight]
        have hlen : byteLength val = k + 2 := by
          have h1 := (byteLength_le_iff val (k + 2)).mpr h
          have h2 : ¬ byteLength val ≤ k + 1 := by
            intro hle
            apply hz
            rw [shiftRight_eight_mul, Nat.div_eq_of_lt ((byteLength_le_iff _ _).mp hle)]
          omega
        rw [significantBytes, hall, map_byteShifts, beBytes, hlen]

theorem encodeString_nil : encodeString [] = [kEmptyStringCode] := by decide

theorem encodeString_beBytes_of_lt {n : Nat} (h0 : n ≠ 0) (h : n < 128) :
    encodeString (beBytes n) = [UInt8.ofNat n] := by
  rw [beBytes_of_lt_256 h0 (by omega)]
  apply encodeString_of_single
  refine ⟨rfl, ?_⟩
  rw [Bytes.at_cons_zero, UInt8.toNat_ofNat', Nat.mod_eq_of_lt (by omega)]
  exact h

theorem encodeString_beBytes_of_ge {n : Nat} (h : 128 ≤ n) (hlen : byteLength n < 56) :
    encodeString (beBytes n) = UInt8.ofNat (128 + byteLength n) :: beBytes n := by
  rw [encodeString_of_not_single, length_beBytes, headerBytes_of_lt hlen]
  · rfl
  · rintro ⟨h1, h2⟩
    rw [length_beBytes] at h1
    have hlt := (byteLength_le_iff n 1).mp (by omega)
    rw [beBytes_of_lt_256 (by omega) (by simpa using hlt), Bytes.at_cons_zero, UInt8.toNat_ofNat'] at h2
    omega

/-- A wide branch of `add_integral` appends the item of the shortest numeral. -/
theorem addWide_run {k val : Nat} (h0 : val ≠ 0) (h : val < 256 ^ (k + 1)) (hk : k < 55) (buf : Bytes)
    (starts : List Nat) :
    addWide (byteShifts k) val ⟨buf, starts⟩ = .ok () ⟨buf ++ encodeString (beBytes val), starts⟩ := by
  unfold addWide
  by_cases hlt : val < kRlpSingleByteThreshold
  · rw [if_pos hlt, encodeString_beBytes_of_lt h0 hlt, appendBuffer_run]
  · have hlen := (byteLength_le_iff val (k + 1)).mpr h
    rw [if_neg hlt, significantBytes_byteShifts h0 h, length_beBytes,
      encodeString_beBytes_of_ge (not_lt.mp hlt) (by omega)]
    rw [bind_of_ok (appendBuffer_run _ _ _), appendBuffer_run, List.append_assoc]
    rfl

theorem addByte_run {val : Nat} (h0 : val ≠ 0) (h : val < 256) (buf : Bytes) (starts : List Nat) :
    addByte val ⟨buf, starts⟩ = .ok () ⟨buf ++ encodeString (beBytes val), starts⟩ := by
  unfold addByte
  by_cases hlt : val < kRlpSingleByteThreshold
  · rw [if_pos hlt, encodeString_beBytes_of_lt h0 hlt, appendBuffer_run]
  · have hlen := (byteLength_le_iff val 1).mpr (by simpa using h)
    have hpos := byteLength_pos h0
    rw [if_neg hlt, encodeString_beBytes_of_ge (not_lt.mp hlt) (by omega),
      show byteLength val = 1 by omega, beBytes_of_lt_256 h0 h]
    rw [bind_of_ok (appendBuffer_run _ _ _), appendBuffer_run, List.append_assoc]
    rfl

theorem addUint256_run (n : UIntTy.Val .uint256) (buf : Bytes) (starts : List Nat) :
    addUint256 n ⟨buf, starts⟩ = .ok () ⟨buf ++ encodeString (toBigCompact n), starts⟩ := by
  rw [toBigCompact_eq]
  unfold addUint256
  split_ifs with h0 hlt
  · rw [appendBuffer_run, h0]
    rfl
  · have hn : n.toNat ≠ 0 := fun h => h0 (BitVec.eq_of_toNat_eq h)
    rw [appendBuffer_run, encodeString_beBytes_of_lt hn hlt]
  · have hlen : byteLength n.toNat ≤ 32 := (byteLength_le_iff _ _).mpr (UIntTy.val_lt n)
    have hsize : (toBigCompact n).length < kSizeModulus := by
      rw [toBigCompact_eq, length_beBytes]
      exact lt_of_le_of_lt hlen (by decide)
    rw [bind_of_ok (lift_eq_ok.mpr ⟨encodeHeaderBytes_eq false hsize, rfl⟩),
      appendBuffer_run, toBigCompact_eq, length_beBytes,
      encodeString_beBytes_of_ge (not_lt.mp hlt) (by omega), headerBytes_of_lt (by omega)]
    rfl

theorem addIntegral_run {T : UIntTy} (hT : T ≠ .uint256) (n : T.Val) (buf : Bytes) (starts : List Nat) :
    addIntegral T n ⟨buf, starts⟩ = .ok () ⟨buf ++ encodeString (toBigCompact n), starts⟩ := by
  rw [toBigCompact_eq]
  unfold addIntegral
  split_ifs with h0
  · rw [appendBuffer_run, h0]
    rfl
  · have hn : n.toNat ≠ 0 := fun h => h0 (BitVec.eq_of_toNat_eq h)
    have hlt := UIntTy.val_lt n
    cases T with
    | uint8 => exact addByte_run hn hlt buf starts
    | uint16 => exact addWide_run (k := 1) hn hlt (by decide) buf starts
    | uint32 => exact addWide_run (k := 3) hn hlt (by decide) buf starts
    | uint64 => exact addWide_run (k := 7) hn hlt (by decide) buf starts
    | uint256 => exact absurd rfl hT

/-- **`add(n)` appends the item of `to_big_compact(n)`**, at every integer type. -/
theorem addUInt_run {T : UIntTy} (n : T.Val) (buf : Bytes) (starts : List Nat) :
    addUInt n ⟨buf, starts⟩ = .ok () ⟨buf ++ encodeString (toBigCompact n), starts⟩ := by
  cases T with
  | uint256 => exact addUint256_run n buf starts
  | _ => exact addIntegral_run (by decide) n buf starts

/-! ## Reading -/

/-- A compact numeral is the shortest one, or the byte `0x00`. -/
theorem isCompact_iff {p : ByteView} {n : Nat} (hn : n < 256 ^ kUint256Size) :
    IsCompact p ∧ beLoad p = n ↔ p = beBytes n ∨ (n = 0 ∧ p = [0]) := by
  constructor
  · rintro ⟨hc, rfl⟩
    rcases p with _ | ⟨x, p⟩
    · exact .inl rfl
    · by_cases hx : x = 0
      · subst hx
        rcases p with _ | ⟨y, p⟩
        · exact .inr ⟨rfl, rfl⟩
        · exact absurd rfl (hc.2 (by simp))
      · exact .inl (beBytes_beLoad (.inr (show Bytes.at (x :: p) 0 ≠ 0 from hx))).symm
  · rintro (rfl | ⟨rfl, rfl⟩)
    · refine ⟨⟨?_, fun hlen => at_beBytes_zero_ne ?_⟩, beLoad_beBytes n⟩
      · rw [length_beBytes]
        exact (byteLength_le_iff _ _).mpr hn
      · rintro rfl
        simp at hlen
    · exact ⟨⟨by decide, by decide⟩, rfl⟩

theorem length_le_of_fromBigCompact {T : UIntTy} {p : ByteView} {v : T.Val}
    (h : fromBigCompact T p = .ok v) : p.length ≤ T.sizeof := by
  have hlt := UIntTy.val_lt v
  have hpos : 1 ≤ T.sizeof := by cases T <;> decide
  have hn : v.toNat < 256 ^ kUint256Size :=
    lt_of_lt_of_le hlt (Nat.pow_le_pow_right (by decide) T.sizeof_le)
  rcases (isCompact_iff hn).mp (fromBigCompact_eq_ok_iff.mp h) with rfl | ⟨-, rfl⟩
  · rw [length_beBytes]
    exact (byteLength_le_iff _ _).mpr hlt
  · exact hpos

theorem toNat_of_fromBigCompact {T : UIntTy} {p : ByteView} {v : T.Val} (h : fromBigCompact T p = .ok v)
    (h1 : p.length = 1) :
    v.toNat = (Bytes.at p 0).toNat := by
  obtain ⟨x, rfl⟩ := List.length_eq_one_iff.mp h1
  rw [← (fromBigCompact_eq_ok_iff.mp h).2, beLoad_singleton, Bytes.at_cons_zero]

/-! The typed reads cut the payload out of the view instead of skipping the header. -/

theorem CanonicalHeader.view_eq {b w : ByteView} {h : Header} (hc : CanonicalHeader b h w) :
    (b.drop h.headerSizeBytes).take h.payloadSizeBytes = w.take h.payloadSizeBytes ∧
      b.drop (h.headerSizeBytes + h.payloadSizeBytes) = w.drop h.payloadSizeBytes ∧
      ¬ b.length < h.headerSizeBytes + h.payloadSizeBytes := by
  have hlen := hc.length_eq
  have hle := hc.payload_le
  refine ⟨by rw [hc.drop_eq], by rw [← List.drop_drop, hc.drop_eq], by omega⟩

/-- Behind a header of its own, a single byte is at least `0x80`. -/
theorem CanonicalHeader.single_ge {b w : ByteView} {h : Header} (hc : CanonicalHeader b h w)
    (hl : h.list = false) (h1 : h.payloadSizeBytes = 1) (h0 : h.headerSizeBytes > 0) :
    128 ≤ (Bytes.at (w.take h.payloadSizeBytes) 0).toNat := by
  cases hc with
  | single => simp at h0
  | @header list n w hn hw hb =>
      simp only at hl h1
      subst hl h1
      rcases w with _ | ⟨x, w⟩
      · simp at hw
      · exact hb rfl rfl

theorem readBytes_of_canonicalHeader {b w : ByteView} {h : Header} (hc : CanonicalHeader b h w)
    (hl : h.list = false) :
    readBytes ⟨b⟩ = .ok (w.take h.payloadSizeBytes) ⟨w.drop h.payloadSizeBytes⟩ := by
  apply readBytes_eq_ok_iff_header.mpr
  exact ⟨h, w, hc, hl, (List.take_append_drop _ _).symm, hc.length_payload⟩

/-- The header `read(Bytes&)` went through, and what the typed reads find behind it. -/
theorem exists_header_of_readBytes {b r : ByteView} {p : Bytes} (hread : readBytes ⟨b⟩ = .ok p ⟨r⟩) :
    ∃ h w, CanonicalHeader b h w ∧ h.list = false ∧ h.payloadSizeBytes = p.length ∧
      (b.drop h.headerSizeBytes).take p.length = p ∧ b.drop (h.headerSizeBytes + p.length) = r ∧
      ¬ b.length < h.headerSizeBytes + p.length ∧
      (p.length = 1 → h.headerSizeBytes > 0 → 128 ≤ (Bytes.at p 0).toNat) := by
  obtain ⟨h, w, hc, hl, rfl, hs⟩ := readBytes_eq_ok_iff_header.mp hread
  obtain ⟨hview, hdrop, hlen⟩ := hc.view_eq
  have hone := hc.single_ge hl
  rw [← hs] at hview hdrop hlen hone
  rw [List.take_left] at hview hone
  rw [List.drop_left] at hdrop
  exact ⟨h, p ++ r, hc, hl, hs.symm, hview, hdrop, hlen, hone⟩

/-- `read_integral` is `read(Bytes&)` followed by `from_big_compact`. -/
theorem readIntegral_eq_ok_iff {T : UIntTy} {b r : ByteView} {v : T.Val} :
    readIntegral T ⟨b⟩ = .ok v ⟨r⟩ ↔ ∃ p, readBytes ⟨b⟩ = .ok p ⟨r⟩ ∧ fromBigCompact T p = .ok v := by
  unfold readIntegral
  rw [get_bind, peekHeader_bind_eq_ok]
  constructor
  · rintro ⟨h, w, hc, hok⟩
    obtain ⟨hview, hdrop, -⟩ := hc.view_eq
    obtain ⟨hl, hok⟩ := rejectIf_bind_eq_ok.mp hok
    obtain ⟨-, hok⟩ := rejectIf_bind_eq_ok.mp hok
    obtain ⟨-, hok⟩ := rejectIf_bind_eq_ok.mp hok
    obtain ⟨-, hok⟩ := rejectIf_bind_eq_ok.mp hok
    obtain ⟨-, hok⟩ := rejectIf_bind_eq_ok.mp hok
    obtain ⟨out, d, hlift, hok⟩ := bind_eq_ok.mp hok
    obtain ⟨hout, rfl⟩ := lift_eq_ok.mp hlift
    obtain ⟨rfl, rfl⟩ := dropFront_pure_eq_ok.mp hok
    rw [hdrop]
    exact ⟨_, readBytes_of_canonicalHeader hc (by simpa using hl), hview ▸ hout⟩
  · rintro ⟨p, hread, hv⟩
    obtain ⟨h, w, hc, hl, hs, hview, hdrop, hlen, hone⟩ := exists_header_of_readBytes hread
    have hcompact := (fromBigCompact_eq_ok_iff.mp hv).1
    have hsize := length_le_of_fromBigCompact hv
    refine ⟨h, w, hc, ?_⟩
    simp only [hs, hview]
    rw [rejectIf_bind_of_not (by simp [hl]),
      rejectIf_bind_of_not (fun hz => hcompact.2 hz.1 hz.2),
      rejectIf_bind_of_not (by omega),
      rejectIf_bind_of_not (fun hn => absurd (hone hn.1 hn.2.1) (not_le.mpr hn.2.2)),
      rejectIf_bind_of_not hlen,
      bind_of_ok (lift_eq_ok.mpr ⟨hv, rfl⟩),
      bind_of_ok (dropFront_apply _ _), hdrop]
    rfl

/-- `read_uint256` checks the single byte after decoding it, and accepts the same. -/
theorem readUint256_eq_ok_iff {b r : ByteView} {v : UIntTy.Val .uint256} :
    readUint256 ⟨b⟩ = .ok v ⟨r⟩ ↔
      ∃ p, readBytes ⟨b⟩ = .ok p ⟨r⟩ ∧ fromBigCompact .uint256 p = .ok v := by
  unfold readUint256
  rw [get_bind, peekHeader_bind_eq_ok]
  constructor
  · rintro ⟨h, w, hc, hok⟩
    obtain ⟨hview, hdrop, -⟩ := hc.view_eq
    obtain ⟨hl, hok⟩ := rejectIf_bind_eq_ok.mp hok
    obtain ⟨-, hok⟩ := rejectIf_bind_eq_ok.mp hok
    obtain ⟨-, hok⟩ := rejectIf_bind_eq_ok.mp hok
    obtain ⟨out, d, hlift, hok⟩ := bind_eq_ok.mp hok
    obtain ⟨hout, rfl⟩ := lift_eq_ok.mp hlift
    obtain ⟨-, hok⟩ := rejectIf_bind_eq_ok.mp hok
    obtain ⟨-, hok⟩ := rejectIf_bind_eq_ok.mp hok
    obtain ⟨rfl, rfl⟩ := dropFront_pure_eq_ok.mp hok
    rw [hdrop]
    exact ⟨_, readBytes_of_canonicalHeader hc (by simpa using hl), hview ▸ hout⟩
  · rintro ⟨p, hread, hv⟩
    obtain ⟨h, w, hc, hl, hs, hview, hdrop, hlen, hone⟩ := exists_header_of_readBytes hread
    have hcompact := (fromBigCompact_eq_ok_iff.mp hv).1
    have hsize : p.length ≤ 32 := length_le_of_fromBigCompact hv
    refine ⟨h, w, hc, ?_⟩
    simp only [hs, hview]
    rw [rejectIf_bind_of_not (by simp [hl]),
      rejectIf_bind_of_not (fun hz => hcompact.2 hz.1 hz.2),
      rejectIf_bind_of_not (by omega),
      bind_of_ok (lift_eq_ok.mpr ⟨hv, rfl⟩),
      rejectIf_bind_of_not, rejectIf_bind_of_not hlen,
      bind_of_ok (dropFront_apply _ _), hdrop]
    · rfl
    · rintro ⟨h1, hlt, h0⟩
      have := hone h1 h0
      rw [toNat_of_fromBigCompact hv h1] at hlt
      exact absurd hlt (not_lt.mpr this)

theorem readUInt_eq_ok_iff_readBytes {T : UIntTy} {b r : ByteView} {v : T.Val} :
    readUInt T ⟨b⟩ = .ok v ⟨r⟩ ↔ ∃ p, readBytes ⟨b⟩ = .ok p ⟨r⟩ ∧ fromBigCompact T p = .ok v := by
  cases T with
  | uint256 => exact readUint256_eq_ok_iff
  | _ => exact readIntegral_eq_ok_iff

/-- What `read(T&)` accepts: the string item of the shortest numeral, or the byte `0x00`. -/
theorem readUInt_eq_ok_iff {T : UIntTy} {b r : ByteView} {v : T.Val} :
    readUInt T ⟨b⟩ = .ok v ⟨r⟩ ↔
      b = encodeString (toBigCompact v) ++ r ∨ (v = 0 ∧ b = 0x00 :: r) := by
  have hv : v.toNat < 256 ^ kUint256Size :=
    lt_of_lt_of_le (UIntTy.val_lt v) (Nat.pow_le_pow_right (by decide) T.sizeof_le)
  have hlen : (beBytes v.toNat).length < kSizeModulus := by
    rw [length_beBytes]
    exact lt_of_le_of_lt ((byteLength_le_iff _ _).mpr hv) (by decide)
  rw [readUInt_eq_ok_iff_readBytes, toBigCompact_eq]
  constructor
  · rintro ⟨p, hread, hp⟩
    obtain ⟨-, rfl⟩ := readBytes_eq_ok_iff.mp hread
    rcases (isCompact_iff hv).mp (fromBigCompact_eq_ok_iff.mp hp) with rfl | ⟨h0, rfl⟩
    · exact .inl rfl
    · exact .inr ⟨BitVec.eq_of_toNat_eq h0, rfl⟩
  · rintro (rfl | ⟨rfl, rfl⟩)
    · exact ⟨_, readBytes_eq_ok_iff.mpr ⟨hlen, rfl⟩,
        fromBigCompact_eq_ok_iff.mpr ((isCompact_iff hv).mpr (.inl rfl))⟩
    · exact ⟨[0], readBytes_eq_ok_iff.mpr ⟨by decide, rfl⟩,
        fromBigCompact_eq_ok_iff.mpr ((isCompact_iff hv).mpr (.inr ⟨rfl, rfl⟩))⟩

/-- **The integer codec is exact.** `add(n)` appends, to any encoder, the bytes `a` that
`add(ByteView)` appends for `to_big_compact(n)`, and `read(T&)` accepts exactly `a`, or `0x00` for
zero, whatever follows. -/
theorem integer_codec_exact (T : UIntTy) (v : T.Val) :
    ∃ a : Bytes,
      (∀ buf starts, addUInt v ⟨buf, starts⟩ = .ok () ⟨buf ++ a, starts⟩) ∧
      (∀ buf starts, addBytes (toBigCompact v) ⟨buf, starts⟩ = .ok () ⟨buf ++ a, starts⟩) ∧
      ∀ b r : Bytes, readUInt T ⟨b⟩ = .ok v ⟨r⟩ ↔ b = a ++ r ∨ (v = 0 ∧ b = 0x00 :: r) := by
  refine ⟨encodeString (toBigCompact v), fun buf starts => addUInt_run v buf starts, ?_, ?_⟩
  · intro buf starts
    apply addBytes_run
    rw [toBigCompact_eq, length_beBytes]
    have hle : byteLength v.toNat ≤ T.sizeof := (byteLength_le_iff _ _).mpr (UIntTy.val_lt v)
    exact lt_of_le_of_lt (hle.trans T.sizeof_le) (by decide)
  · intro b r
    exact readUInt_eq_ok_iff

end DevP2P.Rlp
