import Mathlib.Data.List.Basic
import Mathlib.Data.Option.Basic

/-!
# The last write wins

A state with slots, each of which holds the last update that was made to it.

* `lastWrite slot s us` : the last of the updates `us` to the slot `s`; `mem_of_lastWrite`, `exists_lastWrite` : there
  is one exactly when there is an update to the slot;
* `IsStore` : after an update its slot holds it and every other slot is as before;
* `IsStore.foldl` : after the updates `us`, a slot holds the last one of them, or what it held.
-/

namespace DevP2P.Lib

variable {υ κ σ : Type} [DecidableEq κ]

/-- The last of the updates `us` to the slot `s`. -/
def lastWrite (slot : υ → κ) (s : κ) : List υ → Option υ
  | [] => none
  | u :: us => (lastWrite slot s us).or (if slot u = s then some u else none)

section

variable {slot : υ → κ}

@[simp] theorem lastWrite_nil (s : κ) : lastWrite slot s [] = none := rfl

theorem lastWrite_cons (s : κ) (u : υ) (us : List υ) :
    lastWrite slot s (u :: us) = (lastWrite slot s us).or (if slot u = s then some u else none) := rfl

theorem lastWrite_append (s : κ) (us vs : List υ) :
    lastWrite slot s (us ++ vs) = (lastWrite slot s vs).or (lastWrite slot s us) := by
  induction us with
  | nil => simp
  | cons u us ih => rw [List.cons_append, lastWrite_cons, ih, lastWrite_cons, Option.or_assoc]

theorem mem_of_lastWrite {s : κ} {us : List υ} {u : υ} (h : lastWrite slot s us = some u) : u ∈ us ∧ slot u = s := by
  induction us with
  | nil => cases h
  | cons v us ih =>
      rw [lastWrite_cons] at h
      rcases Option.or_eq_some_iff.mp h with h | ⟨-, h⟩
      · exact ⟨List.mem_cons_of_mem v (ih h).1, (ih h).2⟩
      · by_cases hv : slot v = s
        · rw [if_pos hv] at h
          obtain rfl := Option.some.inj h
          exact ⟨List.mem_cons_self .., hv⟩
        · rw [if_neg hv] at h
          cases h

theorem exists_lastWrite {s : κ} {us : List υ} {u : υ} (hmem : u ∈ us) (hu : slot u = s) :
    ∃ v, lastWrite slot s us = some v := by
  induction us with
  | nil => cases hmem
  | cons w us ih =>
      rw [lastWrite_cons]
      rcases List.mem_cons.mp hmem with rfl | hmem
      · rw [if_pos hu]
        cases lastWrite slot s us with
        | none => exact ⟨u, rfl⟩
        | some v => exact ⟨v, rfl⟩
      · obtain ⟨v, hv⟩ := ih hmem
        exact ⟨v, by rw [hv, Option.some_or]⟩

end

/-- `value` reads the slots of a state that `update` writes. -/
def IsStore (slot : υ → κ) (value : σ → κ → Option υ) (update : σ → υ → σ) : Prop :=
  ∀ st u s, value (update st u) s = if slot u = s then some u else value st s

theorem IsStore.foldl {slot : υ → κ} {value : σ → κ → Option υ} {update : σ → υ → σ}
    (h : IsStore slot value update) (us : List υ) (st : σ) (s : κ) :
    value (us.foldl update st) s = (lastWrite slot s us).or (value st s) := by
  induction us generalizing st with
  | nil => simp
  | cons u us ih =>
      rw [List.foldl_cons, ih, h, lastWrite_cons, Option.or_assoc]
      split_ifs
      · rfl
      · rfl

end DevP2P.Lib
