import DevP2P.Lib.Runs
import Mathlib.Data.List.Induction

/-!
# First in, first out

Calls that offer entries to a queue, which takes those it admits at its end, or ask for the entry at its front.

* `Fifo call queue offered admits` : the calls `call` on a state treat `queue` so;
* `Fifo.origin` : what has come out and what is in the queue, in this order, is what was admitted, in the order of the
  calls;
* `Fifo.nodup_iff` : no key comes out twice, if the queue does not admit a key that it holds, exactly when every key
  that is admitted again after it has come out is asked for too rarely to be reached.
-/

namespace DevP2P.Lib

variable {σ τ α κ : Type}

/-- The calls offer an entry, which is put at the end of the queue if it is admitted, or take one from its front. -/
structure Fifo (call : σ → τ → σ × List α) (queue : σ → List α) (offered : τ → Option α) (admits : σ → α →
    Prop) : Prop where
  push : ∀ {s t a}, offered t = some a → admits s a → queue (call s t).1 = queue s ++ [a] ∧ (call s t).2 = []
  skip : ∀ {s t a}, offered t = some a → ¬ admits s a → queue (call s t).1 = queue s ∧ (call s t).2 = []
  pop : ∀ {s t}, offered t = none → queue (call s t).1 = (queue s).tail ∧ (call s t).2 = (queue s).take 1

def pops (offered : τ → Option α) (ts : List τ) : Nat := ts.countP fun t => (offered t).isNone

namespace Fifo

variable {call : σ → τ → σ × List α} {queue : σ → List α} {offered : τ → Option α} {admits : σ → α → Prop}

theorem log_call (h : Fifo call queue offered admits) (s : σ) (t : τ) :
    (call s t).2 ++ queue (call s t).1 = queue s ∨
    ∃ a, offered t = some a ∧ admits s a ∧ (call s t).2 ++ queue (call s t).1 = queue s ++ [a] := by
  cases ht : offered t with
  | none =>
      obtain ⟨hqueue, hout⟩ := h.pop (s := s) ht
      rw [hqueue, hout, ← List.drop_one, List.take_append_drop]
      exact .inl rfl
  | some a =>
      by_cases ha : admits s a
      · obtain ⟨hqueue, hout⟩ := h.push ht ha
        rw [hqueue, hout]
        exact .inr ⟨a, rfl, ha, rfl⟩
      · obtain ⟨hqueue, hout⟩ := h.skip ht ha
        rw [hqueue, hout]
        exact .inl rfl

theorem exists_pushed (h : Fifo call queue offered admits) (s : σ) (ts : List τ) :
    ∃ pushed, (runEffects call s ts).2 ++ queue (runEffects call s ts).1 = queue s ++ pushed := by
  induction ts generalizing s with
  | nil => exact ⟨[], by rw [runEffects_nil, List.nil_append, List.append_nil]⟩
  | cons t ts ih =>
      obtain ⟨pushed, hpushed⟩ := ih (call s t).1
      rw [runEffects_cons, List.append_assoc, hpushed, ← List.append_assoc]
      rcases h.log_call s t with hsame | ⟨a, -, -, hadded⟩
      · exact ⟨pushed, by rw [hsame]⟩
      · exact ⟨[a] ++ pushed, by rw [hadded, List.append_assoc]⟩

theorem length_output_le (h : Fifo call queue offered admits) (s : σ) (ts : List τ) :
    (runEffects call s ts).2.length ≤ pops offered ts := by
  induction ts generalizing s with
  | nil => exact Nat.le_refl 0
  | cons t ts ih =>
      have htail := ih (call s t).1
      have hhead : (call s t).2.length ≤ if (offered t).isNone then 1 else 0 := by
        cases ht : offered t with
        | none =>
            rw [(h.pop (s := s) ht).2, List.length_take]
            exact Nat.min_le_left _ _
        | some a =>
            by_cases ha : admits s a
            · rw [(h.push ht ha).2]
              exact Nat.zero_le _
            · rw [(h.skip ht ha).2]
              exact Nat.zero_le _
      rw [runEffects_cons, List.length_append]
      unfold pops at htail ⊢
      rw [List.countP_cons]
      omega

theorem le_length_output (h : Fifo call queue offered admits) (s : σ) (ts : List τ) :
    min (pops offered ts) (queue s).length ≤ (runEffects call s ts).2.length := by
  induction ts generalizing s with
  | nil => exact Nat.min_le_left 0 _
  | cons t ts ih =>
      have htail := ih (call s t).1
      rw [runEffects_cons, List.length_append]
      unfold pops at htail ⊢
      rw [List.countP_cons]
      cases ht : offered t with
      | none =>
          obtain ⟨hqueue, hout⟩ := h.pop (s := s) ht
          rw [hqueue, List.length_tail] at htail
          rw [hout, List.length_take]
          simp only [Option.isNone_none, if_true]
          omega
      | some a =>
          have hgrows : (queue s).length ≤ (queue (call s t).1).length := by
            by_cases ha : admits s a
            · rw [(h.push ht ha).1, List.length_append]
              exact Nat.le_add_right _ _
            · exact Nat.le_of_eq (congrArg List.length (h.skip ht ha).1.symm)
          simp only [Option.isNone_some, Bool.false_eq_true, if_false]
          omega

theorem mem_output (h : Fifo call queue offered admits) {s : σ} {ts : List τ} {a : α} {q : List α}
    (hqueue : queue s = q ++ [a])
    (hpops : q.length < pops offered ts) : a ∈ (runEffects call s ts).2 := by
  obtain ⟨pushed, hpushed⟩ := h.exists_pushed s ts
  have hlength := h.le_length_output s ts
  rw [hqueue, List.length_append, List.length_singleton] at hlength
  have hget : ((runEffects call s ts).2 ++ queue (runEffects call s ts).1)[q.length]? = some a := by
    rw [hpushed, hqueue, List.append_assoc, List.getElem?_append_right (Nat.le_refl _), Nat.sub_self]
    rfl
  rw [List.getElem?_append_left (by omega)] at hget
  exact List.mem_of_getElem? hget

/-- **An entry of the output or of the queue was offered and admitted.** Before that, the entries in front of it were in
the output or in the queue. -/
theorem origin (h : Fifo call queue offered admits) {s : σ} (hs : queue s = []) {ts : List τ} {i : Nat} {a : α}
    (hi : ((runEffects call s ts).2 ++ queue (runEffects call s ts).1)[i]? = some a) :
    ∃ pre t post, ts = pre ++ t :: post ∧ offered t = some a ∧ admits (runEffects call s pre).1 a ∧
      (runEffects call s pre).2 ++ queue (runEffects call s pre).1
        = ((runEffects call s ts).2 ++ queue (runEffects call s ts).1).take i := by
  induction ts using List.reverseRecOn with
  | nil =>
      rw [runEffects_nil, hs] at hi
      cases hi
  | append_singleton ts t ih =>
      rw [runEffects_append, runEffects_singleton, List.append_assoc] at hi ⊢
      rcases h.log_call (runEffects call s ts).1 t with hsame | ⟨b, hb, hadmits, hadded⟩
      · rw [hsame] at hi ⊢
        obtain ⟨pre, t', post, rfl, hoffered, hadmits, hlog⟩ := ih hi
        exact ⟨pre, t', post ++ [t], by simp, hoffered, hadmits, hlog⟩
      rw [hadded, ← List.append_assoc] at hi ⊢
      rcases Nat.lt_or_ge i ((runEffects call s ts).2 ++ queue (runEffects call s ts).1).length with hlt | hge
      · rw [List.getElem?_append_left hlt] at hi
        obtain ⟨pre, t', post, rfl, hoffered, hadmits', hlog⟩ := ih hi
        refine ⟨pre, t', post ++ [t], by simp, hoffered, hadmits', ?_⟩
        rw [hlog, List.take_append_of_le_length (Nat.le_of_lt hlt)]
      · -- the entry is the one that this call has added
        rw [List.getElem?_append_right hge, List.getElem?_singleton] at hi
        split at hi
        · obtain rfl := Option.some.inj hi
          exact ⟨ts, t, [], rfl, hb, hadmits, by rw [List.take_left' (by omega)]⟩
        · cases hi

/-- **No key comes out twice exactly when no key that has come out is admitted again and then reached.** -/
theorem nodup_iff (h : Fifo call queue offered admits) (key : α → κ)
    (hkey : ∀ {s a}, admits s a → key a ∉ (queue s).map key) {s : σ} (hs : queue s = []) (ts : List τ) :
    ((runEffects call s ts).2.map key).Nodup ↔
      ∀ pre t a post, ts = pre ++ t :: post → offered t = some a → admits (runEffects call s pre).1 a →
        key a ∈ (runEffects call s pre).2.map key → pops offered post ≤ (queue (runEffects call s pre).1).length := by
  constructor
  · rintro hnodup pre t a post rfl hoffered hadmits hout
    by_contra hpops
    obtain ⟨hqueue, hnone⟩ := h.push hoffered hadmits
    have hagain := h.mem_output hqueue (Nat.lt_of_not_le hpops)
    rw [runEffects_append, runEffects_cons, hnone, List.nil_append, List.map_append] at hnodup
    exact (List.nodup_append.mp hnodup).2.2 _ hout _ (List.mem_map_of_mem hagain) rfl
  · intro hagain
    rw [List.Nodup, List.pairwise_iff_getElem]
    intro i j hi hj hij heq
    rw [List.length_map] at hi hj
    rw [List.getElem_map, List.getElem_map] at heq
    have hget : ((runEffects call s ts).2 ++ queue (runEffects call s ts).1)[j]? =
        some (runEffects call s ts).2[j] := by
      rw [List.getElem?_append_left hj, List.getElem?_eq_getElem hj]
    obtain ⟨pre, t, post, rfl, hoffered, hadmits, hlog⟩ := h.origin hs hget
    -- the entry at `i` was there before the one at `j` was admitted, so it had come out
    have hmem : key (runEffects call s (pre ++ t :: post)).2[j] ∈
        ((runEffects call s pre).2 ++ queue (runEffects call s pre).1).map key := by
      rw [hlog, ← heq]
      refine List.mem_map_of_mem (List.mem_of_getElem? (i := i) ?_)
      rw [List.getElem?_take, if_pos hij, List.getElem?_append_left hi, List.getElem?_eq_getElem hi]
    rw [List.map_append, List.mem_append] at hmem
    have hpops := hagain pre t _ post rfl hoffered hadmits (hmem.resolve_right (hkey hadmits))
    have hlength := congrArg List.length hlog
    rw [List.length_take, List.length_append, List.length_append] at hlength
    have hout := h.length_output_le (call (runEffects call s pre).1 t).1 post
    have hsplit : (runEffects call s (pre ++ t :: post)).2.length
        = (runEffects call s pre).2.length + (runEffects call (call (runEffects call s pre).1 t).1 post).2.length := by
      rw [runEffects_append, runEffects_cons, (h.push hoffered hadmits).2, List.nil_append, List.length_append]
    omega

end Fifo

end DevP2P.Lib
