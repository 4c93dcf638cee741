import Mathlib.Logic.Basic
import Mathlib.Tactic.SplitIfs

/-!
# Computations that fail

Fallible code returns `Except ε α`; fallible code with a state is `EStateM ε σ α`, which keeps the
state an operation leaves behind also when it fails.

* `rejectIf c e` : leave with the error `e` when `c` holds;
* `Fault ε` : an error the code reports, or a read outside an object;
* `bind_eq_ok`, `rejectIf_bind_eq_ok` : what a successful sequence of steps went through, for
  both monads; `bind_of_ok`, `bind_of_error` : one step of a run;
* `Stateful.zoom` : a computation on a part of the state; `Stateful.Maintains` : what a computation maintains of a
  state, however it ends; `Stateful.FailsInPlace` : a failure leaves the state as it was.
-/

namespace DevP2P.Lib

variable {ε σ α β : Type}

/-- Leave with the error `e` when `c` holds. -/
def rejectIf {m : Type → Type} [Monad m] [MonadExcept ε m] (c : Prop) [Decidable c] (e : ε) : m Unit :=
  if c then throw e else pure ()

/-- How an operation fails: with an error it reports, or by reading outside an object. -/
inductive Fault (ε : Type)
  | error (e : ε)
  | outOfBounds
deriving DecidableEq

instance decidableEqExcept [DecidableEq ε] [DecidableEq α] : DecidableEq (Except ε α)
  | .ok a, .ok b => decidable_of_iff (a = b) ⟨congrArg _, Except.ok.inj⟩
  | .error d, .error e => decidable_of_iff (d = e) ⟨congrArg _, Except.error.inj⟩
  | .ok _, .error _ => isFalse (by simp)
  | .error _, .ok _ => isFalse (by simp)

instance decidableEqResult [DecidableEq ε] [DecidableEq σ] [DecidableEq α] : DecidableEq (EStateM.Result ε σ α)
  | .ok a s, .ok b t => decidable_of_iff (a = b ∧ s = t) (EStateM.Result.ok.injEq a s b t ▸ Iff.rfl)
  | .error d s, .error e t => decidable_of_iff (d = e ∧ s = t) (EStateM.Result.error.injEq d s e t ▸ Iff.rfl)
  | .ok _ _, .error _ _ => isFalse (by simp)
  | .error _ _, .ok _ _ => isFalse (by simp)

/-! ## Without a state -/

namespace Outcome

theorem bind_eq_ok {x : Except ε α} {f : α → Except ε β} {b : β} :
    (x >>= f) = .ok b ↔ ∃ a, x = .ok a ∧ f a = .ok b := by
  cases x with
  | error e => simp [bind, Except.bind]
  | ok a => simp [bind, Except.bind]

@[simp] theorem ok_bind (a : α) (f : α → Except ε β) : (Except.ok a >>= f) = f a := rfl

@[simp] theorem pure_bind (a : α) (f : α → Except ε β) : ((pure a : Except ε α) >>= f) = f a := rfl

@[simp] theorem error_bind (e : ε) (f : α → Except ε β) : (Except.error e >>= f) = .error e := rfl

theorem pure_eq_ok {a b : α} : (pure a : Except ε α) = .ok b ↔ a = b := by
  simp [pure, Except.pure]

theorem rejectIf_eq_ok {c : Prop} [Decidable c] {e : ε} {u : Unit} :
    (rejectIf c e : Except ε Unit) = .ok u ↔ ¬ c := by
  unfold rejectIf
  split_ifs with h
  · exact ⟨nofun, fun h' => absurd h h'⟩
  · exact ⟨fun _ => h, fun _ => rfl⟩

theorem rejectIf_bind_eq_ok {c : Prop} [Decidable c] {e : ε} {f : Unit → Except ε β} {b : β} :
    (rejectIf c e >>= f) = .ok b ↔ ¬ c ∧ f () = .ok b := by
  rw [bind_eq_ok]
  exact ⟨fun ⟨_, h1, h2⟩ => ⟨rejectIf_eq_ok.mp h1, h2⟩, fun ⟨h1, h2⟩ => ⟨(), rejectIf_eq_ok.mpr h1, h2⟩⟩

theorem rejectIf_bind_of_not {c : Prop} [Decidable c] (h : ¬ c) (e : ε) (f : Unit → Except ε β) :
    (rejectIf c e >>= f) = f () := by
  simp [rejectIf, h]

theorem rejectIf_bind_of {c : Prop} [Decidable c] (h : c) (e : ε) (f : Unit → Except ε β) :
    (rejectIf c e >>= f) = .error e := by
  simp only [rejectIf, if_pos h]
  rfl

/-- The value of `o`, or the error `e` when there is none. -/
def unwrap (o : Option α) (e : ε) : Except ε α :=
  match o with
  | none => .error e
  | some a => .ok a

@[simp] theorem unwrap_none (e : ε) : unwrap (none : Option α) e = .error e := rfl

@[simp] theorem unwrap_some (a : α) (e : ε) : unwrap (some a) e = .ok a := rfl

theorem unwrap_eq_ok {o : Option α} {e : ε} {a : α} : unwrap o e = .ok a ↔ o = some a := by
  cases o with
  | none => simp [unwrap]
  | some b => simp [unwrap]

theorem mapError_eq_ok {ε' : Type} {f : ε → ε'} {x : Except ε α} {a : α} :
    x.mapError f = .ok a ↔ x = .ok a := by
  cases x with
  | error e => simp [Except.mapError]
  | ok b => simp [Except.mapError]

end Outcome

/-! ## With a state -/

namespace Stateful

theorem bind_eq_ok {x : EStateM ε σ α} {f : α → EStateM ε σ β} {s s' : σ} {b : β} :
    (x >>= f) s = .ok b s' ↔ ∃ a t, x s = .ok a t ∧ f a t = .ok b s' := by
  change (match x s with | .ok a t => f a t | .error e t => .error e t) = _ ↔ _
  cases x s with
  | ok a t =>
      constructor
      · exact fun h => ⟨a, t, rfl, h⟩
      · rintro ⟨_, _, ⟨rfl, rfl⟩, h⟩
        exact h
  | error e t => simp

theorem bind_of_ok {x : EStateM ε σ α} {s t : σ} {a : α} (h : x s = .ok a t) (f : α → EStateM ε σ β) :
    (x >>= f) s = f a t := by
  change (match x s with | .ok a t => f a t | .error e t => .error e t) = _
  rw [h]

theorem bind_of_error {x : EStateM ε σ α} {s t : σ} {e : ε} (h : x s = .error e t)
    (f : α → EStateM ε σ β) : (x >>= f) s = .error e t := by
  change (match x s with | .ok a t => f a t | .error e t => .error e t) = _
  rw [h]

theorem bind_eq_error {x : EStateM ε σ α} {f : α → EStateM ε σ β} {s t : σ} {e : ε} :
    (x >>= f) s = .error e t ↔ x s = .error e t ∨ ∃ a s', x s = .ok a s' ∧ f a s' = .error e t := by
  change (match x s with | .ok a t => f a t | .error e t => .error e t) = _ ↔ _
  cases x s with
  | ok a s' =>
      simp only [reduceCtorEq, false_or, EStateM.Result.ok.injEq]
      exact ⟨fun h => ⟨a, s', ⟨rfl, rfl⟩, h⟩, fun ⟨_, _, ⟨ha, hs⟩, h⟩ => by rwa [ha, hs]⟩
  | error e' t' => simp

theorem rejectIf_eq_ok {c : Prop} [Decidable c] {e : ε} {s s' : σ} {u : Unit} :
    (rejectIf c e : EStateM ε σ Unit) s = .ok u s' ↔ ¬ c ∧ s' = s := by
  unfold rejectIf
  split_ifs with h
  · exact ⟨nofun, fun h' => absurd h h'.1⟩
  · refine ⟨fun h' => ⟨h, ?_⟩, fun h' => by rw [h'.2]; rfl⟩
    exact (EStateM.Result.ok.inj h').2.symm

theorem rejectIf_bind_eq_ok {c : Prop} [Decidable c] {e : ε} {f : Unit → EStateM ε σ β} {s s' : σ}
    {b : β} : (rejectIf c e >>= f) s = .ok b s' ↔ ¬ c ∧ f () s = .ok b s' := by
  unfold rejectIf
  split_ifs with h
  · exact ⟨nofun, fun h' => absurd h h'.1⟩
  · exact ⟨fun h' => ⟨h, h'⟩, fun h' => h'.2⟩

theorem rejectIf_bind_of_not {c : Prop} [Decidable c] (h : ¬ c) (e : ε) (f : Unit → EStateM ε σ β)
    (s : σ) : (rejectIf c e >>= f) s = f () s := by
  simp only [rejectIf, if_neg h]
  rfl

theorem rejectIf_bind_of {c : Prop} [Decidable c] (h : c) (e : ε) (f : Unit → EStateM ε σ β)
    (s : σ) : (rejectIf c e >>= f) s = .error e s := by
  simp only [rejectIf, if_pos h]
  rfl

@[simp] theorem pure_apply (a : α) (s : σ) : (pure a : EStateM ε σ α) s = .ok a s := rfl

theorem pure_eq_ok {a b : α} {s t : σ} : (pure a : EStateM ε σ α) s = .ok b t ↔ a = b ∧ s = t := by
  rw [pure_apply, EStateM.Result.ok.injEq]

@[simp] theorem get_bind (f : σ → EStateM ε σ β) (s : σ) : (get >>= f) s = f s s := rfl

@[simp] theorem set_bind (t : σ) (f : Unit → EStateM ε σ β) (s : σ) : (set t >>= f) s = f () t := rfl

@[simp] theorem modify_apply (f : σ → σ) (s : σ) : (modify f : EStateM ε σ PUnit) s = .ok ⟨⟩ (f s) := rfl

/-- A computation without a state inside one with a state. -/
def lift (x : Except ε α) : EStateM ε σ α := fun s =>
  match x with
  | .ok a => .ok a s
  | .error e => .error e s

@[simp] theorem lift_ok (a : α) (s : σ) : lift (.ok a : Except ε α) s = .ok a s := rfl

@[simp] theorem lift_error (e : ε) (s : σ) : lift (.error e : Except ε α) s = .error e s := rfl

theorem lift_eq_ok {x : Except ε α} {s t : σ} {a : α} : lift x s = .ok a t ↔ x = .ok a ∧ t = s := by
  cases x with
  | ok b =>
      simp only [lift_ok, EStateM.Result.ok.injEq, Except.ok.injEq]
      exact ⟨fun h => ⟨h.1, h.2.symm⟩, fun h => ⟨h.1, h.2.symm⟩⟩
  | error e => simp

/-- `x`, with every failure reported as `e`. -/
def withError {ε' : Type} (e : ε') (x : EStateM ε σ α) : EStateM ε' σ α := fun s =>
  match x s with
  | .ok a t => .ok a t
  | .error _ t => .error e t

theorem withError_eq_ok {ε' : Type} {e : ε'} {x : EStateM ε σ α} {s t : σ} {a : α} :
    withError e x s = .ok a t ↔ x s = .ok a t := by
  unfold withError
  cases x s with
  | ok b u => simp
  | error e u => simp

/-- `x` on the part of the state that `get` reads and `put` writes back, also when it fails. -/
def zoom {τ : Type} (get : σ → τ) (put : τ → σ → σ) (x : EStateM ε τ α) : EStateM ε σ α := fun s =>
  match x (get s) with
  | .ok a t => .ok a (put t s)
  | .error e t => .error e (put t s)

theorem zoom_of_ok {τ : Type} {get : σ → τ} {put : τ → σ → σ} {x : EStateM ε τ α} {s : σ} {t : τ} {a : α}
    (h : x (get s) = .ok a t) : zoom get put x s = .ok a (put t s) := by
  simp only [zoom, h]

/-- The outcome of a call, its final state forgotten. -/
def outcome : EStateM.Result ε σ α → Except ε α
  | .ok a _ => .ok a
  | .error e _ => .error e

theorem outcome_eq_ok {r : EStateM.Result ε σ α} {a : α} : outcome r = .ok a ↔ ∃ s, r = .ok a s := by
  cases r with
  | ok b s => simp [outcome]
  | error e s => simp [outcome]

theorem outcome_eq_error {r : EStateM.Result ε σ α} {e : ε} : outcome r = .error e ↔ ∃ s, r = .error e s := by
  cases r with
  | ok b s => simp [outcome]
  | error e s => simp [outcome]

def finalState : EStateM.Result ε σ α → σ
  | .ok _ s => s
  | .error _ s => s

def succeeds : EStateM.Result ε σ α → Bool
  | .ok _ _ => true
  | .error _ _ => false

theorem map_of_ok {β : Type} {x : EStateM ε σ α} {s t : σ} {a : α} (f : α → β) (h : x s = .ok a t) :
    (f <$> x) s = .ok (f a) t := by
  show (match x s with | .ok a t => EStateM.Result.ok (f a) t | .error e t => .error e t) = _
  rw [h]

theorem finalState_map {β : Type} (f : α → β) (x : EStateM ε σ α) (s : σ) :
    finalState ((f <$> x) s) = finalState (x s) := by
  show finalState (match x s with | .ok a t => EStateM.Result.ok (f a) t | .error e t => .error e t) = _
  cases x s <;> rfl

theorem outcome_map {β : Type} (f : α → β) (x : EStateM ε σ α) (s : σ) :
    outcome ((f <$> x) s) = (outcome (x s)).map f := by
  show outcome (match x s with | .ok a t => EStateM.Result.ok (f a) t | .error e t => .error e t) = _
  cases x s <;> rfl

/-! ### What a computation maintains -/

/-- However the computation ends, `I` holds afterwards if it held before. -/
def Maintains (I : σ → Prop) (x : EStateM ε σ α) : Prop := ∀ s, I s → I (finalState (x s))

namespace Maintains

variable {I : σ → Prop}

theorem bind {x : EStateM ε σ α} {f : α → EStateM ε σ β} (hx : Maintains I x) (hf : ∀ a, Maintains I (f a)) :
    Maintains I (x >>= f) := by
  intro s hs
  have ht := hx s hs
  cases h : x s with
  | ok a t =>
      rw [h] at ht
      rw [bind_of_ok h]
      exact hf a t ht
  | error e t =>
      rw [h] at ht
      rw [bind_of_error h]
      exact ht

theorem pure (a : α) : Maintains I (Pure.pure a : EStateM ε σ α) := fun _ hs => hs

theorem get : Maintains I (get : EStateM ε σ σ) := fun _ hs => hs

theorem modify {f : σ → σ} (h : ∀ s, I s → I (f s)) : Maintains I (modify f : EStateM ε σ PUnit) := h

theorem lift (x : Except ε α) : Maintains I (Stateful.lift x) := by
  intro s hs
  cases x <;> exact hs

theorem rejectIf (c : Prop) [Decidable c] (e : ε) : Maintains I (Lib.rejectIf c e : EStateM ε σ Unit) := by
  intro s hs
  unfold Lib.rejectIf
  split_ifs <;> exact hs

end Maintains

/-! ### Failures that leave the state -/

/-- From the state `s`, a failure leaves the state as it was. -/
def FailsInPlace (x : EStateM ε σ α) (s : σ) : Prop := ∀ e t, x s = .error e t → t = s

namespace FailsInPlace

variable {s : σ}

theorem of_ok {x : EStateM ε σ α} {a : α} {t : σ} (h : x s = .ok a t) : FailsInPlace x s := by
  intro e t' herr
  rw [h] at herr
  cases herr

theorem get_bind {f : σ → EStateM ε σ β} (h : FailsInPlace (f s) s) : FailsInPlace (get >>= f) s := h

theorem lift_bind {x : Except ε α} {f : α → EStateM ε σ β} (h : ∀ a, x = .ok a → FailsInPlace (f a) s) :
    FailsInPlace (Stateful.lift x >>= f) s := by
  cases x with
  | ok a => exact h a rfl
  | error e =>
      intro e' t herr
      exact (EStateM.Result.error.inj herr).2.symm

theorem rejectIf_bind {c : Prop} [Decidable c] {e : ε} {f : Unit → EStateM ε σ β} (h : ¬ c → FailsInPlace (f ()) s) :
    FailsInPlace (Lib.rejectIf c e >>= f) s := by
  by_cases hc : c
  · intro e' t herr
    rw [rejectIf_bind_of hc] at herr
    exact (EStateM.Result.error.inj herr).2.symm
  · intro e' t herr
    rw [rejectIf_bind_of_not hc] at herr
    exact h hc e' t herr

end FailsInPlace

/-! ### Steps that report their errors -/

/-- The steps fail with errors they report only. -/
def Reports (x : EStateM (Fault ε) σ α) : Prop := ∀ s t, x s ≠ .error .outOfBounds t

theorem Reports.bind {x : EStateM (Fault ε) σ α} {f : α → EStateM (Fault ε) σ β} (hx : Reports x)
    (hf : ∀ a, Reports (f a)) : Reports (x >>= f) := by
  intro s t h
  rcases bind_eq_error.mp h with h | ⟨a, s', -, h⟩
  · exact hx s t h
  · exact hf a s' t h

theorem Reports.pure (a : α) : Reports (Pure.pure a : EStateM (Fault ε) σ α) := fun _ _ h => nomatch h

theorem Reports.get : Reports (get : EStateM (Fault ε) σ σ) := fun _ _ h => nomatch h

theorem Reports.rejectIf (c : Prop) [Decidable c] (e : ε) :
    Reports (rejectIf c (.error e) : EStateM (Fault ε) σ Unit) := by
  intro s t h
  unfold Lib.rejectIf at h
  split_ifs at h <;> cases h

theorem Reports.withError {ε' : Type} (e : ε) (x : EStateM ε' σ α) : Reports (withError (.error e : Fault ε) x) := by
  intro s t h
  unfold Stateful.withError at h
  split at h <;> cases h

end Stateful

end DevP2P.Lib
