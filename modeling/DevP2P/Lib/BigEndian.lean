import DevP2P.Lib.Bytes
import Mathlib.Data.Nat.Log
import Mathlib.Tactic.Ring
import Mathlib.Tactic.NormNum

/-!
# Big-endian numerals

* `beLoad` : the number a byte string denotes; `beStore k n` : the low `k` bytes of `n`;
* `byteLength n` : how many bytes `n` takes; `beBytes n` : the shortest numeral of `n`;
* `beLoad_beStore`, `beStore_beLoad`, `beLoad_beBytes`, `beBytes_beLoad` : the round trips, the last
  one for strings without a leading zero byte (`at_beBytes_zero_ne`);
* `byteLength_le_iff` : `n` takes at most `k` bytes iff `n < 256 ^ k`.
-/

namespace DevP2P.Lib

/-- The number denoted by `b`, most significant byte first. -/
def beLoad (b : Bytes) : Nat := b.foldl (fun acc x => acc * 256 + x.toNat) 0

/-- The low `k` bytes of `n`, most significant first. -/
def beStore : Nat → Nat → Bytes
  | 0, _ => []
  | k + 1, n => beStore k (n / 256) ++ [UInt8.ofNat n]

/-- The number of bytes of `n`. -/
def byteLength (n : Nat) : Nat := if n = 0 then 0 else n.log2 / 8 + 1

/-- The shortest big-endian numeral of `n`; empty for `0`. -/
def beBytes (n : Nat) : Bytes := beStore (byteLength n) n

/-! ## Loading -/

@[simp] theorem beLoad_nil : beLoad [] = 0 := rfl

theorem beLoad_snoc (b : Bytes) (x : UInt8) : beLoad (b ++ [x]) = beLoad b * 256 + x.toNat := by
  simp [beLoad]

@[simp] theorem beLoad_singleton (x : UInt8) : beLoad [x] = x.toNat := by simp [beLoad]

theorem beLoad_append (a b : Bytes) : beLoad (a ++ b) = beLoad a * 256 ^ b.length + beLoad b := by
  induction b using List.reverseRecOn with
  | nil => simp
  | append_singleton b x ih =>
      rw [← List.append_assoc, beLoad_snoc, ih, beLoad_snoc, List.length_append,
        List.length_singleton, pow_succ]
      ring

theorem beLoad_cons (x : UInt8) (b : Bytes) :
    beLoad (x :: b) = x.toNat * 256 ^ b.length + beLoad b := by
  simpa using beLoad_append [x] b

theorem beLoad_lt (b : Bytes) : beLoad b < 256 ^ b.length := by
  induction b using List.reverseRecOn with
  | nil => simp
  | append_singleton b x ih =>
      have hx := x.toNat_lt
      rw [beLoad_snoc, List.length_append, List.length_singleton, pow_succ]
      omega

@[simp] theorem beLoad_zeros (k : Nat) : beLoad (List.replicate k 0) = 0 := by
  induction k with
  | zero => rfl
  | succ k ih => rw [List.replicate_succ', beLoad_snoc, ih]; rfl

theorem beLoad_zeros_append (k : Nat) (b : Bytes) : beLoad (List.replicate k 0 ++ b) = beLoad b := by
  rw [beLoad_append, beLoad_zeros]
  omega

/-! ## Storing -/

@[simp] theorem length_beStore (k n : Nat) : (beStore k n).length = k := by
  induction k generalizing n with
  | zero => rfl
  | succ k ih => simp [beStore, ih]

theorem beLoad_beStore (k n : Nat) : beLoad (beStore k n) = n % 256 ^ k := by
  induction k generalizing n with
  | zero => simp [beStore, Nat.mod_one]
  | succ k ih =>
      have hb : (UInt8.ofNat n).toNat = n % 256 := UInt8.toNat_ofNat'
      rw [beStore, beLoad_snoc, ih, hb, pow_succ', Nat.mod_mul]
      ring

theorem beLoad_beStore_of_lt {k n : Nat} (h : n < 256 ^ k) : beLoad (beStore k n) = n := by
  rw [beLoad_beStore, Nat.mod_eq_of_lt h]

theorem beStore_beLoad (b : Bytes) : beStore b.length (beLoad b) = b := by
  induction b using List.reverseRecOn with
  | nil => rfl
  | append_singleton b x ih =>
      have hx := x.toNat_lt
      rw [List.length_append, List.length_singleton, beLoad_snoc, beStore,
        show (beLoad b * 256 + x.toNat) / 256 = beLoad b by omega, ih]
      congr 2
      apply uint8_eq_of_toNat
      rw [UInt8.toNat_ofNat']
      omega

theorem beStore_add (j k n : Nat) : beStore (j + k) n = beStore j (n / 256 ^ k) ++ beStore k n := by
  induction k generalizing n with
  | zero => simp [beStore]
  | succ k ih =>
      rw [← Nat.add_assoc, beStore, ih, beStore, List.append_assoc, Nat.div_div_eq_div_mul, pow_succ']

theorem drop_beStore (j k n : Nat) : (beStore (j + k) n).drop j = beStore k n := by
  rw [beStore_add, List.drop_left' (length_beStore j _)]

/-! ## Shortest numerals -/

theorem byteLength_le_iff (n k : Nat) : byteLength n ≤ k ↔ n < 256 ^ k := by
  unfold byteLength
  split_ifs with h
  · subst h
    simp
  · rw [show (256 : Nat) = 2 ^ 8 by norm_num, ← pow_mul, ← Nat.log2_lt h]
    omega

@[simp] theorem byteLength_zero : byteLength 0 = 0 := rfl

theorem byteLength_pos {n : Nat} (h : n ≠ 0) : 0 < byteLength n := by simp [byteLength, h]

@[simp] theorem length_beBytes (n : Nat) : (beBytes n).length = byteLength n := length_beStore _ _

@[simp] theorem beBytes_zero : beBytes 0 = [] := rfl

@[simp] theorem beLoad_beBytes (n : Nat) : beLoad (beBytes n) = n :=
  beLoad_beStore_of_lt ((byteLength_le_iff n _).mp le_rfl)

theorem byteLength_beLoad_le (b : Bytes) : byteLength (beLoad b) ≤ b.length :=
  (byteLength_le_iff _ _).mpr (beLoad_lt b)

theorem beBytes_beLoad {b : Bytes} (h : b = [] ∨ Bytes.at b 0 ≠ 0) : beBytes (beLoad b) = b := by
  have hle := byteLength_beLoad_le b
  have hge : b.length ≤ byteLength (beLoad b) := by
    rcases b with _ | ⟨x, b⟩
    · simp
    · have hx : x ≠ 0 := by simpa using h
      have hx0 : 0 < x.toNat := by
        rcases Nat.eq_zero_or_pos x.toNat with h0 | h0
        · exact absurd (uint8_eq_of_toNat h0) hx
        · exact h0
      by_contra hlt
      have h1 := (byteLength_le_iff (beLoad (x :: b)) b.length).mp (by simp at hlt; omega)
      rw [beLoad_cons] at h1
      have h2 : 256 ^ b.length ≤ x.toNat * 256 ^ b.length := Nat.le_mul_of_pos_left _ hx0
      omega
  rw [beBytes, le_antisymm hle hge, beStore_beLoad]

theorem at_beBytes_zero_ne {n : Nat} (h : n ≠ 0) : Bytes.at (beBytes n) 0 ≠ 0 := by
  intro h0
  have hpos := byteLength_pos h
  rcases hb : beBytes n with _ | ⟨x, b⟩
  · have := length_beBytes n
    rw [hb] at this
    simp at this
    omega
  · rw [hb] at h0
    have hx : x = 0 := h0
    have hlen : b.length + 1 = byteLength n := by rw [← length_beBytes, hb]; rfl
    have hn : beLoad (beBytes n) = n := beLoad_beBytes n
    rw [hb, hx, beLoad_cons] at hn
    have hlt := beLoad_lt b
    have : byteLength n ≤ b.length := (byteLength_le_iff n _).mpr (by simp at hn; omega)
    omega

theorem beBytes_of_lt_256 {n : Nat} (h0 : n ≠ 0) (h : n < 256) : beBytes n = [UInt8.ofNat n] := by
  have h1 : byteLength n = 1 := by
    have := (byteLength_le_iff n 1).mpr (by simpa using h)
    have := byteLength_pos h0
    omega
  simp [beBytes, h1, beStore]

/-- A numeral of `n`, leading zero bytes dropped. -/
theorem drop_beStore_byteLength {n k : Nat} (h : n < 256 ^ k) :
    (beStore k n).drop (k - byteLength n) = beBytes n := by
  have hle := (byteLength_le_iff n k).mpr h
  conv_lhs => rw [show k = (k - byteLength n) + byteLength n by omega]
  rw [show k - byteLength n + byteLength n - byteLength n = k - byteLength n by omega, drop_beStore, beBytes]

end DevP2P.Lib
