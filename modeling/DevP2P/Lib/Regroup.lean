import DevP2P.Lib.BigEndian
import Mathlib.Data.Nat.Digits.Defs

/-!
# Groups of bits as bytes

A reader of groups of `k` bits shifts each of them into an accumulator of `w` bits, and writes a byte as soon as there
are eight bits that have not been written. The accumulator is never cleared: what is shifted out at the top has been
written before.

* `groupsValue k gs` : the number with the digits `gs` in base `2 ^ k`, the first one leading;
* `Packed k gs out bits acc` : `out` and the low `bits` bits of `acc` are the groups `gs`;
* `Packed.push_few`, `Packed.push_byte` : one more group, without and with a byte that is written;
* `Packed.out_eq` : what is written is determined by the groups.
-/

namespace DevP2P.Lib

/-- The number with the digits `gs` in base `2 ^ k`, the first one leading. -/
def groupsValue (k : Nat) (gs : List Nat) : Nat := Nat.ofDigits (2 ^ k) gs.reverse

@[simp] theorem groupsValue_nil (k : Nat) : groupsValue k [] = 0 := rfl

theorem groupsValue_concat (k : Nat) (gs : List Nat) (x : Nat) :
    groupsValue k (gs ++ [x]) = groupsValue k gs * 2 ^ k + x := by
  unfold groupsValue
  rw [List.reverse_append, List.reverse_singleton, List.singleton_append, Nat.ofDigits_cons, Nat.mul_comm, Nat.add_comm]

theorem groupsValue_append (k : Nat) (gs hs : List Nat) :
    groupsValue k (gs ++ hs) = groupsValue k gs * 2 ^ (k * hs.length) + groupsValue k hs := by
  unfold groupsValue
  rw [List.reverse_append, Nat.ofDigits_append, List.length_reverse, ← Nat.pow_mul, Nat.mul_comm, Nat.add_comm]

/-- `out` and behind it the low `bits` bits of `acc` are the groups `gs` of `k` bits. -/
structure Packed (k : Nat) (gs : List Nat) (out : Bytes) (bits acc : Nat) : Prop where
  bits_lt : bits < 8
  size : 8 * out.length + bits = k * gs.length
  value : groupsValue k gs = beLoad out * 2 ^ bits + acc % 2 ^ bits

namespace Packed

variable {k w bits acc x : Nat} {gs : List Nat} {out : Bytes}

theorem nil (k acc : Nat) : Packed k [] [] 0 acc := ⟨by decide, rfl, by simp [Nat.mod_one]⟩

theorem mod_push (acc : Nat) (hw : bits + k ≤ w) (hx : x < 2 ^ k) :
    (acc * 2 ^ k + x) % 2 ^ w % 2 ^ (bits + k) = acc % 2 ^ bits * 2 ^ k + x := by
  have hlt : acc % 2 ^ bits * 2 ^ k + x < 2 ^ (bits + k) := by
    have hle : (acc % 2 ^ bits + 1) * 2 ^ k ≤ 2 ^ bits * 2 ^ k :=
      Nat.mul_le_mul_right _ (Nat.mod_lt acc (Nat.two_pow_pos bits))
    rw [Nat.pow_add]
    rw [Nat.add_mul, Nat.one_mul] at hle
    omega
  rw [Nat.mod_mod_of_dvd _ (Nat.pow_dvd_pow 2 hw), ← Nat.mod_eq_of_lt hlt, Nat.add_mod,
    Nat.add_mod (acc % 2 ^ bits * 2 ^ k),
    Nat.pow_add, Nat.mul_mod_mul_right, Nat.mul_mod_mul_right, Nat.mod_mod]

theorem value_push (h : Packed k gs out bits acc) (hw : bits + k ≤ w) (hx : x < 2 ^ k) :
    groupsValue k (gs ++ [x]) = beLoad out * 2 ^ (bits + k) + (acc * 2 ^ k + x) % 2 ^ w % 2 ^ (bits + k) := by
  rw [groupsValue_concat, h.value, mod_push acc hw hx, Nat.add_mul, Nat.mul_assoc, ← Nat.pow_add, Nat.add_assoc]

theorem size_push (h : Packed k gs out bits acc) (x : Nat) : 8 * out.length + (bits + k) = k * (gs ++ [x]).length := by
  rw [List.length_append, List.length_singleton, Nat.mul_add, ← h.size]
  omega

theorem push_few (h : Packed k gs out bits acc) (hw : bits + k ≤ w) (hx : x < 2 ^ k) (hfew : bits + k < 8) :
    Packed k (gs ++ [x]) out (bits + k) ((acc * 2 ^ k + x) % 2 ^ w) :=
  ⟨hfew, h.size_push x, h.value_push hw hx⟩

theorem push_byte (h : Packed k gs out bits acc) (hw : bits + k ≤ w) (hx : x < 2 ^ k) (hk : k ≤ 8)
    (hfull : 8 ≤ bits + k) :
    Packed k (gs ++ [x]) (out ++ [UInt8.ofNat ((acc * 2 ^ k + x) % 2 ^ w / 2 ^ (bits + k - 8))]) (bits + k - 8)
      ((acc * 2 ^ k + x) % 2 ^ w) := by
  have hbits := h.bits_lt
  refine ⟨by omega, ?_, ?_⟩
  · rw [← h.size_push x, List.length_append, List.length_singleton]
    omega
  · generalize hnew : (acc * 2 ^ k + x) % 2 ^ w = new
    have hsplit : 2 ^ (bits + k) = 2 ^ (bits + k - 8) * 2 ^ 8 := by
      rw [← Nat.pow_add]
      congr 1
      omega
    rw [h.value_push hw hx, hnew, hsplit, Nat.mod_mul, beLoad_snoc, UInt8.toNat_ofNat', Nat.add_mul]
    ring

theorem out_eq (h : Packed k gs out bits acc) {d : Bytes} {pad : Nat} (hpad : pad < 8)
    (hsize : 8 * d.length + pad = k * gs.length)
    (hvalue : groupsValue k gs = beLoad d * 2 ^ pad) : out = d := by
  have hbits := h.bits_lt
  have hsame := h.size
  have hlength : out.length = d.length := by omega
  obtain rfl : bits = pad := by omega
  have hload : beLoad out = beLoad d := by
    have hquot := congrArg (· / 2 ^ bits) (h.value.symm.trans hvalue)
    simp only [Nat.mul_div_left _ (Nat.two_pow_pos bits)] at hquot
    rwa [Nat.mul_comm, Nat.mul_add_div (Nat.two_pow_pos bits), Nat.div_eq_of_lt (Nat.mod_lt _ (Nat.two_pow_pos bits)),
      Nat.add_zero] at hquot
  rw [← beStore_beLoad out, ← beStore_beLoad d, hload, hlength]

end Packed

end DevP2P.Lib
