import Mathlib.Data.List.Basic

/-!
# Streams read in order

A sender and a receiver each hold a state that every message advances: `emit s a` is the message for
`a` in state `s` and the state after it. The receiver is in step when it is in the state the sender
was in before the messages still in flight.

* `emitAll` : the messages for several values in turn;
* `Stream` : both ends of one direction, what was sent, what is in flight, what was received;
* `InStep.send`, `InStep.deliver` : one step of either end keeps them in step;
* `InStep.received_isPrefix`, `InStep.length_sent` : nothing is lost, altered or reordered.
-/

namespace DevP2P.Lib

variable {σ α β : Type}

/-- The messages for `as` in turn, and the state after them. -/
def emitAll (emit : σ → α → β × σ) : σ → List α → List β × σ
  | s, [] => ([], s)
  | s, a :: as =>
    let (b, t) := emit s a
    let (bs, u) := emitAll emit t as
    (b :: bs, u)

section

variable (emit : σ → α → β × σ)

theorem emitAll_cons (s : σ) (a : α) (as : List α) :
    emitAll emit s (a :: as) =
      ((emit s a).1 :: (emitAll emit (emit s a).2 as).1, (emitAll emit (emit s a).2 as).2) := rfl

theorem emitAll_concat (s : σ) (as : List α) (a : α) :
    emitAll emit s (as ++ [a]) =
      ((emitAll emit s as).1 ++ [(emit (emitAll emit s as).2 a).1], (emit (emitAll emit s as).2 a).2) := by
  induction as generalizing s with
  | nil => rfl
  | cons b as ih => rw [List.cons_append, emitAll_cons, emitAll_cons, ih, List.cons_append]

theorem length_emitAll (s : σ) (as : List α) : (emitAll emit s as).1.length = as.length := by
  induction as generalizing s with
  | nil => rfl
  | cons a as ih => rw [emitAll_cons, List.length_cons, List.length_cons, ih]

end

/-- One direction between two parties. -/
structure Stream (σ α β : Type) where
  sender : σ
  receiver : σ
  sent : List α
  inFlight : List β
  received : List α

/-- The receiver has received the values sent, up to those in flight, which it is in the state to read.
All values in flight satisfy `P`. -/
def InStep (emit : σ → α → β × σ) (P : α → Prop) (c : Stream σ α β) : Prop :=
  ∃ pending, c.sent = c.received ++ pending ∧
    emitAll emit c.receiver pending = (c.inFlight, c.sender) ∧ ∀ a ∈ pending, P a

namespace InStep

variable {emit : σ → α → β × σ} {P : α → Prop} {c : Stream σ α β}

theorem start (s : σ) : InStep emit P ⟨s, s, [], [], []⟩ := ⟨[], rfl, rfl, nofun⟩

theorem send (h : InStep emit P c) {a : α} (ha : P a) :
    InStep emit P { c with sender := (emit c.sender a).2, sent := c.sent ++ [a],
                           inFlight := c.inFlight ++ [(emit c.sender a).1] } := by
  obtain ⟨pending, hsent, hemit, hP⟩ := h
  refine ⟨pending ++ [a], ?_, ?_, ?_⟩
  · rw [hsent, List.append_assoc]
  · rw [emitAll_concat, hemit]
  · intro b hb
    rcases List.mem_append.mp hb with hb | hb
    · exact hP b hb
    · exact List.mem_singleton.mp hb ▸ ha

theorem deliver (h : InStep emit P c) {b : β} {rest : List β} (hb : c.inFlight = b :: rest) :
    ∃ a, P a ∧ (emit c.receiver a).1 = b ∧
      InStep emit P { c with receiver := (emit c.receiver a).2, inFlight := rest,
                             received := c.received ++ [a] } := by
  obtain ⟨pending, hsent, hemit, hP⟩ := h
  cases pending with
  | nil => simp [emitAll, hb] at hemit
  | cons a pending =>
      rw [emitAll_cons, hb, Prod.mk.injEq, List.cons.injEq] at hemit
      refine ⟨a, hP a (by simp), hemit.1.1, pending, ?_, ?_, fun x hx => hP x (by simp [hx])⟩
      · rw [hsent, List.append_assoc, List.singleton_append]
      · exact Prod.ext hemit.1.2 hemit.2

theorem received_isPrefix (h : InStep emit P c) : c.received <+: c.sent := by
  obtain ⟨pending, hsent, -, -⟩ := h
  exact ⟨pending, hsent.symm⟩

theorem length_sent (h : InStep emit P c) : c.sent.length = c.received.length + c.inFlight.length := by
  obtain ⟨pending, hsent, hemit, -⟩ := h
  have hlen := length_emitAll emit c.receiver pending
  rw [hemit] at hlen
  rw [hsent, List.length_append, hlen]

end InStep

end DevP2P.Lib
