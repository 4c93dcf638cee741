import DevP2P.Lib.Outcome
import Mathlib.Data.List.Basic

/-!
# Runs of calls on a state

* `runAll call as` : the calls `as` one after the other; `runAll_flatten` : calls whose state is a function of the data
  so far;
* `Steps call I s as t` : from `s` they all succeed and lead to `t`, and every state on the way
  satisfies `I`; `Steps.append` composes runs, `Steps.of_append` cuts one, `Steps.runAll_eq` is the
  execution;
* `runEffects call s as` : calls that always succeed and have effects; `runEffects_invariant` : what every
  call keeps of a state and the effects up to it, a sequence of calls keeps.
-/

namespace DevP2P.Lib

variable {ε σ α : Type}

/-- The calls `as`, one after the other. -/
def runAll (call : α → EStateM ε σ Unit) : List α → EStateM ε σ Unit
  | [] => pure ()
  | a :: as => do
    call a
    runAll call as

/-- If a call with the data `c` leads from the state after `d` to the state after `d ++ c`, as long as the data satisfy
`P`, then the calls lead to the state after all of the data. -/
theorem runAll_flatten {call : List α → EStateM ε σ Unit} {state : List α → σ} {P : List α → Prop}
    (hfront : ∀ c d, P (c ++ d) → P c)
    (hcall : ∀ d c, P (d ++ c) → call c (state d) = .ok () (state (d ++ c))) (cs : List (List α)) {d : List α}
    (h : P (d ++ cs.flatten)) : runAll call cs (state d) = .ok () (state (d ++ cs.flatten)) := by
  induction cs generalizing d with
  | nil =>
      rw [List.flatten_nil, List.append_nil]
      rfl
  | cons c cs ih =>
      rw [List.flatten_cons, ← List.append_assoc] at h ⊢
      rw [runAll, Stateful.bind_of_ok (hcall d c (hfront _ _ h)), ih h]

/-- From `s` the calls `as` succeed and lead to `t`, through states that satisfy `I`. -/
inductive Steps (call : α → EStateM ε σ Unit) (I : σ → Prop) : σ → List α → σ → Prop
  | nil {s : σ} : I s → Steps call I s [] s
  | cons {s t u : σ} {a : α} {as : List α} :
      I s → call a s = .ok () t → Steps call I t as u → Steps call I s (a :: as) u

namespace Steps

variable {call : α → EStateM ε σ Unit} {I : σ → Prop} {s t u : σ} {a : α} {as bs : List α}

theorem single (hs : I s) (h : call a s = .ok () t) (ht : I t) : Steps call I s [a] t :=
  .cons hs h (.nil ht)

theorem append (h : Steps call I s as t) (h' : Steps call I t bs u) : Steps call I s (as ++ bs) u := by
  induction h with
  | nil => exact h'
  | cons hs hc _ ih => exact .cons hs hc (ih h')

/-- A run of `as ++ bs` passes through the end of a run of `as`. -/
theorem of_append (h : Steps call I s (as ++ bs) u) : ∃ t, Steps call I s as t ∧ Steps call I t bs u := by
  induction as generalizing s with
  | nil =>
      refine ⟨s, .nil ?_, h⟩
      cases h with
      | nil hs => exact hs
      | cons hs _ _ => exact hs
  | cons a as ih =>
      cases h with
      | cons hs hc h =>
          obtain ⟨t, h1, h2⟩ := ih h
          exact ⟨t, .cons hs hc h1, h2⟩

theorem inv_end (h : Steps call I s as t) : I t := by
  induction h with
  | nil hs => exact hs
  | cons _ _ _ ih => exact ih

theorem runAll_eq (h : Steps call I s as t) : runAll call as s = .ok () t := by
  induction h with
  | nil => rfl
  | cons _ hc _ ih => rw [runAll, Stateful.bind_of_ok hc, ih]

end Steps

/-! ## Calls with effects -/

section

variable {β : Type}

/-- The calls `as` one after the other, and their effects in order. -/
def runEffects (call : σ → α → σ × List β) : σ → List α → σ × List β
  | s, [] => (s, [])
  | s, a :: as => ((runEffects call (call s a).1 as).1, (call s a).2 ++ (runEffects call (call s a).1 as).2)

variable {call : σ → α → σ × List β}

@[simp] theorem runEffects_nil (s : σ) : runEffects call s [] = (s, []) := rfl

theorem runEffects_cons (s : σ) (a : α) (as : List α) :
    runEffects call s (a :: as) =
      ((runEffects call (call s a).1 as).1, (call s a).2 ++ (runEffects call (call s a).1 as).2) := rfl

theorem runEffects_singleton (s : σ) (a : α) : runEffects call s [a] = call s a := by
  rw [runEffects_cons, runEffects_nil, List.append_nil]

theorem runEffects_append (s : σ) (as bs : List α) :
    runEffects call s (as ++ bs) =
      ((runEffects call (runEffects call s as).1 bs).1,
        (runEffects call s as).2 ++ (runEffects call (runEffects call s as).1 bs).2) := by
  induction as generalizing s with
  | nil => rfl
  | cons a as ih => rw [List.cons_append, runEffects_cons, ih, runEffects_cons, List.append_assoc]

theorem runEffects_map {γ : Type} (f : γ → α) (s : σ) (cs : List γ) :
    runEffects call s (cs.map f) = runEffects (fun s c => call s (f c)) s cs := by
  induction cs generalizing s with
  | nil => rfl
  | cons c cs ih => rw [List.map_cons, runEffects_cons, ih, runEffects_cons]

theorem runEffects_eq_foldl {f : σ → α → σ} (hcall : ∀ s a, call s a = (f s a, [])) (s : σ) (as : List α) :
    runEffects call s as = (as.foldl f s, []) := by
  induction as generalizing s with
  | nil => rfl
  | cons a as ih => rw [runEffects_cons, hcall, ih, List.foldl_cons, List.nil_append]

theorem runEffects_fst (s : σ) (as : List α) : (runEffects call s as).1 = as.foldl (fun s a => (call s a).1) s := by
  induction as generalizing s with
  | nil => rfl
  | cons a as ih => exact ih (call s a).1

theorem runEffects_invariant {I : σ → List β → Prop} {as : List α}
    (hcall : ∀ a ∈ as, ∀ s es, I s es → I (call s a).1 (es ++ (call s a).2)) {s : σ} {es : List β} (h : I s es) :
    I (runEffects call s as).1 (es ++ (runEffects call s as).2) := by
  induction as generalizing s es with
  | nil => rwa [runEffects_nil, List.append_nil]
  | cons a as ih =>
      rw [runEffects_cons, ← List.append_assoc]
      exact ih (fun b hb => hcall b (List.mem_cons_of_mem a hb)) (hcall a List.mem_cons_self s es h)

theorem runEffects_state {I : σ → Prop} {as : List α} (hcall : ∀ a ∈ as, ∀ s, I s → I (call s a).1) {s : σ} (h : I s) :
    I (runEffects call s as).1 := by
  induction as generalizing s with
  | nil => exact h
  | cons a as ih => exact ih (fun b hb => hcall b (List.mem_cons_of_mem a hb)) (hcall a List.mem_cons_self s h)

theorem exists_call_of_mem {s : σ} {as : List α} {e : β} (h : e ∈ (runEffects call s as).2) :
    ∃ pre a post, as = pre ++ a :: post ∧ e ∈ (call (runEffects call s pre).1 a).2 := by
  induction as generalizing s with
  | nil => exact absurd h List.not_mem_nil
  | cons a as ih =>
      rw [runEffects_cons] at h
      rcases List.mem_append.mp h with hfirst | hrest
      · exact ⟨[], a, as, rfl, hfirst⟩
      · obtain ⟨pre, b, post, rfl, hb⟩ := ih hrest
        exact ⟨a :: pre, b, post, rfl, hb⟩

theorem runEffects_forall {P : β → Prop} {as : List α} (h : ∀ a ∈ as, ∀ s, ∀ e ∈ (call s a).2, P e) {s : σ} :
    ∀ e ∈ (runEffects call s as).2, P e := by
  have hall : ∀ e ∈ [] ++ (runEffects call s as).2, P e := by
    apply runEffects_invariant (I := fun _ es => ∀ e ∈ es, P e) _ (by simp)
    intro a ha s es hes e he
    rcases List.mem_append.mp he with he | he
    · exact hes e he
    · exact h a ha s e he
  rwa [List.nil_append] at hall

end

end DevP2P.Lib
