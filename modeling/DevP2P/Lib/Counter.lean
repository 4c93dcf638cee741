import Mathlib.Algebra.Group.Nat.Defs
import Mathlib.Data.List.Range
import Mathlib.Data.List.Nodup

/-!
# Ids from a counter

A counter of `w` bits that starts at one.

* `idOf i` : the id that is handed out after `i` others; `idOf_add_one` : the next one;
* `nodup_ids` : fewer than `2 ^ w` ids are all different.
-/

namespace DevP2P.Lib

variable {w : Nat}

/-- The id that is handed out after `i` others. -/
def idOf (i : Nat) : BitVec w := BitVec.ofNat w (i + 1)

theorem toNat_idOf {i : Nat} (h : i + 1 < 2 ^ w) : (idOf i : BitVec w).toNat = i + 1 := by
  unfold idOf
  rw [BitVec.toNat_ofNat, Nat.mod_eq_of_lt h]

theorem idOf_add_one (i : Nat) : (idOf i : BitVec w) + 1 = idOf (i + 1) := by
  unfold idOf
  rw [BitVec.ofNat_add (i + 1) 1]
  rfl

theorem idOf_inj {i j : Nat} (hi : i + 1 < 2 ^ w) (hj : j + 1 < 2 ^ w) (h : (idOf i : BitVec w) = idOf j) : i = j := by
  have hnat := congrArg BitVec.toNat h
  rw [toNat_idOf hi, toNat_idOf hj] at hnat
  omega

theorem idOf_not_mem {k n : Nat} (hk : k ≤ n) (hn : n + 1 < 2 ^ w) : (idOf n : BitVec w) ∉ (List.range k).map idOf := by
  intro hmem
  obtain ⟨i, hi, heq⟩ := List.mem_map.mp hmem
  have hi := List.mem_range.mp hi
  have := idOf_inj (by omega) hn heq
  omega

theorem nodup_ids {k : Nat} (h : k < 2 ^ w) : ((List.range k).map (idOf : Nat → BitVec w)).Nodup := by
  apply List.Nodup.map_on _ List.nodup_range
  intro i hi j hj heq
  have hi := List.mem_range.mp hi
  have hj := List.mem_range.mp hj
  exact idOf_inj (by omega) (by omega) heq

end DevP2P.Lib
