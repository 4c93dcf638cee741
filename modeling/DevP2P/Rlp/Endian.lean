import DevP2P.Lib.BigEndian
import DevP2P.Rlp.Types

/-!
# Compact big-endian integers (`rlp/endian.cpp`)

`toBigCompact` writes the significant bytes of an integer; `fromBigCompact` reads them back,
refusing leading zero bytes and values outside the target type. `intx::be::store`, `intx::be::load`
and `intx::count_significant_bytes` are the big-endian store, load and byte length of 256-bit
integers.
-/

namespace DevP2P.Rlp
open DevP2P.Lib

/-- `sizeof(intx::uint256)`. -/
def kUint256Size : Nat := 32

/-- `to_big_compact`, for the standard types and for `uint256`. -/
def toBigCompact {T : UIntTy} (n : T.Val) : Bytes :=
  if n = 0 then [] else
    let numBytes := byteLength n.toNat
    let tempBuffer := beStore kUint256Size n.toNat
    (tempBuffer.drop (kUint256Size - numBytes)).take numBytes

/-- The part the two `from_big_compact` overloads share: the value, before it is narrowed. -/
def loadCompact (bytes : ByteView) : Except DecodingError Nat := do
  if bytes.isEmpty then return 0
  else
    rejectIf (Bytes.at bytes 0 = 0 ∧ bytes.length > 1) .kLeadingZero
    if bytes.length = 1 ∧ Bytes.at bytes 0 = 0 then return 0
    else
      rejectIf (bytes.length > kUint256Size) .kOverflow
      let padded := List.replicate (kUint256Size - bytes.length) 0 ++ bytes
      return beLoad padded

/-- `from_big_compact`; the `uint256` overload has no range check. -/
def fromBigCompact (T : UIntTy) (bytes : ByteView) : Except DecodingError T.Val := do
  let val ← loadCompact bytes
  rejectIf (T ≠ .uint256 ∧ val > 2 ^ (8 * T.sizeof) - 1) .kOverflow
  return BitVec.ofNat _ val

/-! ## Writing -/

theorem toBigCompact_eq {T : UIntTy} (n : T.Val) : toBigCompact n = beBytes n.toNat := by
  unfold toBigCompact
  split_ifs with h
  · subst h
    simp
  · have hlt : n.toNat < 256 ^ kUint256Size :=
      lt_of_lt_of_le (UIntTy.val_lt n) (Nat.pow_le_pow_right (by decide) T.sizeof_le)
    simp only
    rw [drop_beStore_byteLength hlt, List.take_of_length_le (by simp)]

/-! ## Reading -/

/-- A compact numeral: no leading zero byte, at most 32 bytes. -/
def IsCompact (bytes : ByteView) : Prop :=
  bytes.length ≤ kUint256Size ∧ (bytes.length > 1 → Bytes.at bytes 0 ≠ 0)

theorem loadCompact_eq_ok_iff {bytes : ByteView} {n : Nat} :
    loadCompact bytes = .ok n ↔ IsCompact bytes ∧ beLoad bytes = n := by
  unfold loadCompact IsCompact
  by_cases h0 : bytes.isEmpty
  · obtain rfl := List.isEmpty_iff.mp h0
    simp [pure, Except.pure]
  · rw [if_neg h0]
    have hpos : 0 < bytes.length := List.length_pos_iff.mpr (by simpa using h0)
    rw [Outcome.rejectIf_bind_eq_ok]
    by_cases h1 : bytes.length = 1 ∧ Bytes.at bytes 0 = 0
    · rw [if_pos h1]
      obtain ⟨x, rfl⟩ := List.length_eq_one_iff.mp h1.1
      obtain rfl : x = 0 := h1.2
      simp [pure, Except.pure, kUint256Size]
    · rw [if_neg h1, Outcome.rejectIf_bind_eq_ok]
      simp only [pure, Except.pure, Except.ok.injEq, beLoad_zeros_append]
      constructor
      · rintro ⟨h2, h3, h4⟩
        exact ⟨⟨by omega, fun hl hz => h2 ⟨hz, hl⟩⟩, h4⟩
      · rintro ⟨⟨h2, h3⟩, h4⟩
        exact ⟨fun h => h3 h.2 h.1, by omega, h4⟩

theorem beLoad_lt_of_isCompact {bytes : ByteView} (h : IsCompact bytes) :
    beLoad bytes < 256 ^ UIntTy.sizeof .uint256 :=
  lt_of_lt_of_le (beLoad_lt bytes) (Nat.pow_le_pow_right (by decide) h.1)

theorem fromBigCompact_eq_ok_iff {T : UIntTy} {bytes : ByteView} {v : T.Val} :
    fromBigCompact T bytes = .ok v ↔ IsCompact bytes ∧ beLoad bytes = v.toNat := by
  have hpow : 2 ^ (8 * T.sizeof) = 256 ^ T.sizeof := by rw [Nat.pow_mul]
  unfold fromBigCompact
  rw [Outcome.bind_eq_ok]
  constructor
  · rintro ⟨n, hn, h⟩
    obtain ⟨hc, rfl⟩ := loadCompact_eq_ok_iff.mp hn
    obtain ⟨hle, h⟩ := Outcome.rejectIf_bind_eq_ok.mp h
    obtain rfl := Outcome.pure_eq_ok.mp h
    refine ⟨hc, (UIntTy.toNat_ofNat ?_).symm⟩
    by_cases hT : T = .uint256
    · subst hT
      exact beLoad_lt_of_isCompact hc
    · have := Nat.pow_pos (n := T.sizeof) (show 0 < 256 by decide)
      have hle' : ¬ beLoad bytes > 2 ^ (8 * T.sizeof) - 1 := fun hgt => hle ⟨hT, hgt⟩
      rw [hpow] at hle'
      omega
  · rintro ⟨hc, h⟩
    have hv := UIntTy.val_lt v
    refine ⟨_, loadCompact_eq_ok_iff.mpr ⟨hc, rfl⟩, Outcome.rejectIf_bind_eq_ok.mpr ⟨?_, ?_⟩⟩
    · rw [hpow]
      omega
    · exact Outcome.pure_eq_ok.mpr (BitVec.eq_of_toNat_eq (by rw [h, UIntTy.toNat_ofNat hv]))

end DevP2P.Rlp
