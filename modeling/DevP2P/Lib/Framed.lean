import DevP2P.Lib.InOrder

/-!
# Frames in a stream of tokens

A sender writes one frame behind the other, and the connection may end anywhere. A reader has read some of the frames
and looks at the tokens behind them.

* `emitAll_append` : the frames for two lists of values;
* `Framed emit P s tokens pending` : the tokens are those of the frames for `pending` in the state `s`, cut anywhere,
  with at most a part of one more;
* `Framed.next` : they start with the first of these frames, or are a proper part of one frame;
* `Framed.behind` : what a reader finds behind the frames that it has read.
-/

namespace DevP2P.Lib

variable {σ α β τ : Type}

theorem emitAll_append (emit : σ → α → β × σ) (s : σ) (as bs : List α) :
    emitAll emit s (as ++ bs) =
      ((emitAll emit s as).1 ++ (emitAll emit (emitAll emit s as).2 bs).1,
        (emitAll emit (emitAll emit s as).2 bs).2) := by
  induction as generalizing s with
  | nil => rfl
  | cons a as ih => rw [List.cons_append, emitAll_cons, emitAll_cons, ih, List.cons_append]

/-- The tokens of the frames for `as`. -/
def framesOf (emit : σ → α → List τ × σ) (s : σ) (as : List α) : List τ := (emitAll emit s as).1.flatten

section

variable (emit : σ → α → List τ × σ)

theorem framesOf_cons (s : σ) (a : α) (as : List α) :
    framesOf emit s (a :: as) = (emit s a).1 ++ framesOf emit (emit s a).2 as := by
  rw [framesOf, emitAll_cons, List.flatten_cons]
  rfl

theorem framesOf_singleton (s : σ) (a : α) : framesOf emit s [a] = (emit s a).1 := by
  rw [framesOf_cons, framesOf, emitAll, List.flatten_nil, List.append_nil]

theorem framesOf_append (s : σ) (as bs : List α) :
    framesOf emit s (as ++ bs) = framesOf emit s as ++ framesOf emit (emitAll emit s as).2 bs := by
  rw [framesOf, emitAll_append, List.flatten_append]
  rfl

theorem framesOf_concat (s : σ) (as : List α) (a : α) :
    framesOf emit s (as ++ [a]) = framesOf emit s as ++ (emit (emitAll emit s as).2 a).1 := by
  rw [framesOf_append, framesOf_singleton]

end

/-- The tokens are those of the frames for `pending`, cut anywhere, with at most a part of one more frame. All frames
are for values that satisfy `P`. -/
def Framed (emit : σ → α → List τ × σ) (P : α → Prop) (s : σ) (tokens : List τ) (pending : List α) : Prop :=
  (∀ a ∈ pending, P a) ∧ ∃ a rest, P a ∧ rest ≠ [] ∧ tokens ++ rest = framesOf emit s (pending ++ [a])

namespace Framed

variable {emit : σ → α → List τ × σ} {P : α → Prop} {s : σ} {tokens : List τ} {pending : List α}

theorem complete {a : α} (ha : P a) (hne : ∀ t, (emit t a).1 ≠ []) (hP : ∀ b ∈ pending, P b) :
    Framed emit P s (framesOf emit s pending) pending :=
  ⟨hP, a, _, ha, hne _, (framesOf_concat emit s pending a).symm⟩

theorem partly {a : α} (ha : P a) {part rest : List τ} (hrest : rest ≠ [])
    (hpart : part ++ rest = (emit (emitAll emit s pending).2 a).1)
    (hP : ∀ b ∈ pending, P b) : Framed emit P s (framesOf emit s pending ++ part) pending :=
  ⟨hP, a, rest, ha, hrest, by rw [List.append_assoc, hpart, framesOf_concat]⟩

theorem of_isPrefix (h : Framed emit P s tokens pending) {front : List τ} (hfront : front <+: tokens) :
    Framed emit P s front pending := by
  obtain ⟨hP, a, rest, ha, hrest, heq⟩ := h
  obtain ⟨more, rfl⟩ := hfront
  refine ⟨hP, a, more ++ rest, ha, ?_, by rw [← heq, List.append_assoc]⟩
  intro hnil
  exact hrest (List.append_eq_nil_iff.mp hnil).2

theorem next (h : Framed emit P s tokens pending) :
    (∃ a as more, pending = a :: as ∧ P a ∧ tokens = (emit s a).1 ++ more ∧ Framed emit P (emit s a).2 more as) ∨
      ∃ a rest, P a ∧ rest ≠ [] ∧ tokens ++ rest = (emit s a).1 := by
  obtain ⟨hP, a, rest, ha, hrest, heq⟩ := h
  cases pending with
  | nil =>
      rw [List.nil_append, framesOf_singleton] at heq
      exact .inr ⟨a, rest, ha, hrest, heq⟩
  | cons b pending =>
      rw [List.cons_append, framesOf_cons] at heq
      have hb : P b := hP b List.mem_cons_self
      rcases List.append_eq_append_iff.mp heq with ⟨part, hframe, hmore⟩ | ⟨more, rfl, hmore⟩
      · -- the tokens end inside the first frame, or with it
        cases part with
        | nil =>
            rw [List.append_nil] at hframe
            rw [List.nil_append] at hmore
            exact .inl ⟨b, pending, [], rfl, hb, by rw [hframe, List.append_nil],
              fun c hc => hP c (List.mem_cons_of_mem b hc), a, rest, ha, hrest, hmore⟩
        | cons t part => exact .inr ⟨b, t :: part, hb, List.cons_ne_nil t part, hframe.symm⟩
      · exact .inl ⟨b, pending, more, rfl, hb, rfl,
          fun c hc => hP c (List.mem_cons_of_mem b hc), a, rest, ha, hrest, hmore.symm⟩

/-- What is behind the frames for `as`. -/
theorem behind {as bs : List α} (h : Framed emit P s tokens (as ++ bs)) {more : List τ}
    (hmore : framesOf emit s as ++ more <+: tokens) :
    Framed emit P (emitAll emit s as).2 more bs := by
  obtain ⟨hP, a, rest, ha, hrest, heq⟩ := h.of_isPrefix hmore
  refine ⟨fun b hb => hP b (List.mem_append_right as hb), a, rest, ha, hrest, ?_⟩
  rw [List.append_assoc, List.append_assoc, framesOf_append] at heq
  exact List.append_cancel_left heq

end Framed

end DevP2P.Lib
