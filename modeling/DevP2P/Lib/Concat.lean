import Mathlib.Data.List.Flatten
import Mathlib.Data.List.Forall2

/-!
# Concatenations

* `Concat R vs p` : `p` is a concatenation of one piece for each element of `vs`, each as `R` allows;
* `concat_cons`, `concat_append` : an element and two sequences in turn; `concat_eq_iff` : pieces that are a function of
  the element;
* `PrefixFree P` : of two pieces that start one input, both are the same; `PrefixFree.flatten_append_inj` : then also
  sequences of the same length.
-/

namespace DevP2P.Lib

variable {α β τ : Type}

/-- `p` is a concatenation of one piece for each element of `vs`, each as `R` allows. -/
def Concat (R : α → List τ → Prop) (vs : List α) (p : List τ) : Prop :=
  ∃ ps, List.Forall₂ R vs ps ∧ p = ps.flatten

section

variable {R S : α → List τ → Prop} {v : α} {vs ws : List α} {p q : List τ}

@[simp] theorem concat_nil : Concat R [] p ↔ p = [] := by
  constructor
  · rintro ⟨ps, h, rfl⟩
    rw [List.forall₂_nil_left_iff.mp h, List.flatten_nil]
  · rintro rfl
    exact ⟨[], .nil, rfl⟩

theorem concat_cons : Concat R (v :: vs) p ↔ ∃ q r, R v q ∧ Concat R vs r ∧ p = q ++ r := by
  constructor
  · rintro ⟨ps, h, rfl⟩
    obtain ⟨q, qs, hq, hqs, rfl⟩ := List.forall₂_cons_left_iff.mp h
    exact ⟨q, qs.flatten, hq, ⟨qs, hqs, rfl⟩, List.flatten_cons⟩
  · rintro ⟨q, r, hq, ⟨qs, hqs, rfl⟩, rfl⟩
    exact ⟨q :: qs, .cons hq hqs, List.flatten_cons.symm⟩

theorem concat_singleton : Concat R [v] p ↔ R v p := by
  rw [concat_cons]
  constructor
  · rintro ⟨q, r, hq, hr, rfl⟩
    rwa [concat_nil.mp hr, List.append_nil]
  · intro h
    exact ⟨p, [], h, concat_nil.mpr rfl, (List.append_nil p).symm⟩

theorem concat_append : Concat R (vs ++ ws) p ↔ ∃ q r, Concat R vs q ∧ Concat R ws r ∧ p = q ++ r := by
  induction vs generalizing p with
  | nil => simp
  | cons v vs ih =>
      rw [List.cons_append, concat_cons]
      constructor
      · rintro ⟨q, r, hq, hr, rfl⟩
        obtain ⟨s, t, hs, ht, rfl⟩ := ih.mp hr
        exact ⟨q ++ s, t, concat_cons.mpr ⟨q, s, hq, hs, rfl⟩, ht, (List.append_assoc _ _ _).symm⟩
      · rintro ⟨qs, t, hqs, ht, rfl⟩
        obtain ⟨q, s, hq, hs, rfl⟩ := concat_cons.mp hqs
        exact ⟨q, s ++ t, hq, ih.mpr ⟨s, t, hs, ht, rfl⟩, List.append_assoc _ _ _⟩

theorem Concat.mono (hp : Concat R vs p) (h : ∀ v ∈ vs, ∀ q, R v q → S v q) : Concat S vs p := by
  induction vs generalizing p with
  | nil => exact concat_nil.mpr (concat_nil.mp hp)
  | cons v vs ih =>
      obtain ⟨q, r, hq, hr, rfl⟩ := concat_cons.mp hp
      exact concat_cons.mpr ⟨q, r, h v List.mem_cons_self q hq,
        ih hr fun w hw => h w (List.mem_cons_of_mem v hw), rfl⟩

theorem concat_eq_iff {f : α → List τ} : Concat (fun v q => q = f v) vs p ↔ p = vs.flatMap f := by
  induction vs generalizing p with
  | nil => simp
  | cons v vs ih =>
      rw [concat_cons, List.flatMap_cons]
      constructor
      · rintro ⟨q, r, rfl, hr, rfl⟩
        rw [ih.mp hr]
      · rintro rfl
        exact ⟨_, _, rfl, ih.mpr rfl, rfl⟩

theorem concat_map {f : β → α} {bs : List β} : Concat R (bs.map f) p ↔ Concat (fun b => R (f b)) bs p := by
  unfold Concat
  simp only [List.forall₂_map_left_iff]

theorem Concat.eq_nil (h : Concat R vs []) (hne : ∀ v q, R v q → q ≠ []) : vs = [] := by
  cases vs with
  | nil => rfl
  | cons v vs =>
      obtain ⟨q, r, hq, -, hnil⟩ := concat_cons.mp h
      exact absurd (List.append_eq_nil_iff.mp hnil.symm).1 (hne v q hq)

end

theorem length_le_flatMap {f : α → List τ} {a : α} {as : List α} (h : a ∈ as) :
    (f a).length ≤ (as.flatMap f).length := by
  rw [List.flatMap_def]
  exact (List.sublist_flatten_of_mem (List.mem_map_of_mem h)).length_le

theorem card_le_length_flatMap {f : α → List τ} (hf : ∀ a, f a ≠ []) (as : List α) :
    as.length ≤ (as.flatMap f).length := by
  induction as with
  | nil => exact Nat.le_refl 0
  | cons a as ih =>
      have := List.length_pos_iff.mpr (hf a)
      rw [List.flatMap_cons, List.length_append, List.length_cons]
      omega

theorem forall_mem_of_forall₂ {γ δ : Type} {Q : γ → δ → Prop} {P : δ → Prop} {cs : List γ} {ds : List δ}
    (h : List.Forall₂ Q cs ds) (hP : ∀ c d, Q c d → P d) : ∀ d ∈ ds, P d := by
  induction h with
  | nil => simp
  | cons hcd _ ih => exact List.forall_mem_cons.mpr ⟨hP _ _ hcd, ih⟩

theorem eq_map_of_forall₂ {γ δ : Type} {Q : γ → δ → Prop} {f : γ → δ} {cs : List γ} {ds : List δ}
    (h : List.Forall₂ Q cs ds) (hf : ∀ c ∈ cs, ∀ d, Q c d → d = f c) : ds = cs.map f := by
  induction h with
  | nil => rfl
  | cons hcd _ ih =>
      obtain ⟨hc, hcs⟩ := List.forall_mem_cons.mp hf
      rw [List.map_cons, ← hc _ hcd, ← ih hcs]

/-! ## Pieces found from the front -/

/-- Of two pieces that start one input, both are the same. -/
def PrefixFree (P : List τ → Prop) : Prop := ∀ p q r s, P p → P q → p ++ r = q ++ s → p = q

theorem PrefixFree.append_inj {P : List τ → Prop} (hP : PrefixFree P) {p q r s : List τ} (hp : P p) (hq : P q)
    (h : p ++ r = q ++ s) : p = q ∧ r = s := by
  have hpq := hP p q r s hp hq h
  subst hpq
  exact ⟨rfl, List.append_cancel_left h⟩

theorem PrefixFree.flatten_append_inj {P : List τ → Prop} (hP : PrefixFree P) {ps qs : List (List τ)} {r s : List τ}
    (hps : ∀ p ∈ ps, P p) (hqs : ∀ q ∈ qs, P q) (hlen : ps.length = qs.length)
    (h : ps.flatten ++ r = qs.flatten ++ s) : ps = qs ∧ r = s := by
  induction ps generalizing qs with
  | nil =>
      obtain rfl := List.length_eq_zero_iff.mp hlen.symm
      exact ⟨rfl, h⟩
  | cons p ps ih =>
      obtain ⟨q, qs, rfl⟩ := List.exists_cons_of_length_eq_add_one hlen.symm
      rw [List.flatten_cons, List.flatten_cons, List.append_assoc, List.append_assoc] at h
      obtain ⟨rfl, htail⟩ := hP.append_inj (hps p List.mem_cons_self) (hqs q List.mem_cons_self) h
      obtain ⟨rfl, hrs⟩ := ih (fun p hp => hps p (List.mem_cons_of_mem _ hp))
        (fun q hq => hqs q (List.mem_cons_of_mem _ hq)) (Nat.succ.inj hlen) htail
      exact ⟨rfl, hrs⟩

theorem PrefixFree.length_le_of_flatten {P : List τ → Prop} (hP : PrefixFree P) (hne : ∀ p, P p → p ≠ [])
    {ps qs : List (List τ)} {r : List τ} (hps : ∀ p ∈ ps, P p) (hqs : ∀ q ∈ qs, P q)
    (h : ps.flatten ++ r = qs.flatten) : ps.length ≤ qs.length := by
  induction ps generalizing qs with
  | nil => exact Nat.zero_le _
  | cons p ps ih =>
      rw [List.flatten_cons, List.append_assoc] at h
      cases qs with
      | nil => exact absurd (List.append_eq_nil_iff.mp h).1 (hne p (hps p List.mem_cons_self))
      | cons q qs =>
          obtain ⟨-, htail⟩ := hP.append_inj (hps p List.mem_cons_self) (hqs q List.mem_cons_self) h
          exact Nat.succ_le_succ (ih (fun p hp => hps p (List.mem_cons_of_mem _ hp))
            (fun q hq => hqs q (List.mem_cons_of_mem _ hq)) htail)

end DevP2P.Lib
