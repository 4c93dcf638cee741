import Mathlib.Data.List.Perm.Basic
import Mathlib.Algebra.BigOperators.Group.Finset.Basic
import Mathlib.Algebra.Order.BigOperators.Group.Finset
import Mathlib.Data.Fintype.BigOperators

/-!
# Counting by owner

* `countP_eq_eraseIdx`, `countP_set_add` : how a count changes when an entry is removed or replaced;
* `sum_countP_eq_length` : entries that are counted for each owner are counted once;
* `sum_update_add` : a sum in which one term changes;
* `exists_shares` : a number is the sum of one share for each owner, none above a limit.
-/

namespace DevP2P.Lib

variable {α ι : Type}

/-! ## Entries of a list -/

theorem perm_eraseIdx {l : List α} {k : Nat} {a : α} (h : l[k]? = some a) : (a :: l.eraseIdx k).Perm l := by
  obtain ⟨hk, rfl⟩ := List.getElem?_eq_some_iff.mp h
  exact List.getElem_cons_eraseIdx_perm hk

theorem countP_eq_eraseIdx (p : α → Bool) {l : List α} {k : Nat} {a : α} (h : l[k]? = some a) :
    l.countP p = (l.eraseIdx k).countP p + if p a then 1 else 0 := by
  rw [← (perm_eraseIdx h).countP_eq p, List.countP_cons]

theorem countP_set_add (p : α → Bool) {l : List α} {k : Nat} {a : α} (h : l[k]? = some a) (b : α) :
    ((l.set k b).countP p + if p a then 1 else 0) = l.countP p + if p b then 1 else 0 := by
  obtain ⟨hk, -⟩ := List.getElem?_eq_some_iff.mp h
  rw [(List.set_perm_cons_eraseIdx hk b).countP_eq p, List.countP_cons, countP_eq_eraseIdx p h]
  omega

theorem length_eraseIdx_add_one {l : List α} {k : Nat} {a : α} (h : l[k]? = some a) :
    (l.eraseIdx k).length + 1 = l.length :=
  (perm_eraseIdx h).length_eq

/-! ## Sums over the owners -/

variable [Fintype ι] [DecidableEq ι]

theorem sum_countP_eq_length (owner : α → ι) (l : List α) : ∑ i, l.countP (fun a => owner a = i) = l.length := by
  induction l with
  | nil => simp
  | cons a l ih =>
      simp only [List.countP_cons, Finset.sum_add_distrib, ih, decide_eq_true_eq, List.length_cons]
      rw [Finset.sum_ite_eq Finset.univ (owner a) fun _ => 1, if_pos (Finset.mem_univ _)]

theorem sum_update_add (f : ι → Nat) (i : ι) (b : Nat) : ∑ j, Function.update f i b j + f i = ∑ j, f j + b := by
  have hrest : ∑ j ∈ Finset.univ.erase i, Function.update f i b j = ∑ j ∈ Finset.univ.erase i, f j :=
    Finset.sum_congr rfl fun j hj => Function.update_of_ne (Finset.ne_of_mem_erase hj) b f
  have hnew := Finset.add_sum_erase Finset.univ (Function.update f i b) (Finset.mem_univ i)
  have hold := Finset.add_sum_erase Finset.univ f (Finset.mem_univ i)
  rw [Function.update_self] at hnew
  omega

omit [Fintype ι] in
/-- The owners in `s` share `n`, none with more than `limit`. -/
theorem exists_shares (limit : Nat) (s : Finset ι) :
    ∀ n ≤ s.card * limit, ∃ share : ι → Nat, (∀ i, share i ≤ limit) ∧ (∀ i ∉ s, share i = 0) ∧
      ∑ i ∈ s, share i = n := by
  induction s using Finset.induction_on with
  | empty =>
      intro n hn
      have hzero : n = 0 := by simpa using hn
      exact ⟨fun _ => 0, fun _ => Nat.zero_le _, fun _ _ => rfl, by simp [hzero]⟩
  | insert a s ha ih =>
      intro n hn
      rw [Finset.card_insert_of_notMem ha, Nat.succ_mul] at hn
      -- `a` takes what it can, the others the rest
      obtain ⟨share, hlimit, hnone, hsum⟩ := ih (n - min n limit) (by omega)
      refine ⟨Function.update share a (min n limit), fun i => ?_, fun i hi => ?_, ?_⟩
      · by_cases hia : i = a
        · rw [hia, Function.update_self]
          exact Nat.min_le_right n limit
        · rw [Function.update_of_ne hia]
          exact hlimit i
      · rw [Finset.mem_insert, not_or] at hi
        rw [Function.update_of_ne hi.1]
        exact hnone i hi.2
      · have hrest : ∑ i ∈ s, Function.update share a (min n limit) i = ∑ i ∈ s, share i :=
          Finset.sum_congr rfl fun i hi => Function.update_of_ne (ne_of_mem_of_not_mem hi ha) _ _
        rw [Finset.sum_insert ha, Function.update_self, hrest, hsum]
        omega

end DevP2P.Lib
