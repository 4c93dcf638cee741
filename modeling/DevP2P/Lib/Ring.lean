import Mathlib.Data.List.DropRight
import Mathlib.Data.List.Rotate

/-!
# Ring buffers

A ring keeps the last entries of a history: it fills its slots from the front, and then every new entry takes the place
of the oldest one.

* `ringEntries slots head count` : the entries, the oldest first;
* `RingHolds slots head history` : the entries are the last ones of the history;
* `RingHolds.fill`, `RingHolds.replace` : one more entry, while there is room and when there is none;
* `RingHolds.oldest` : the entry that is replaced is the first one of those kept.
-/

namespace DevP2P.Lib

variable {α : Type}

def ringEntries (slots : List α) (head count : Nat) : List α := (slots.rotate head).take count

theorem ringEntries_fill {slots : List α} {count : Nat} (h : count < slots.length) (a : α) :
    ringEntries (slots.set count a) 0 (count + 1) = ringEntries slots 0 count ++ [a] := by
  unfold ringEntries
  rw [List.rotate_zero, List.rotate_zero, List.set_eq_take_append_cons_drop, if_pos h, List.take_append,
    List.take_of_length_le (by rw [List.length_take]; omega), List.length_take, min_eq_left h.le,
    Nat.add_sub_cancel_left]
  rfl

theorem ringEntries_replace {slots : List α} {head : Nat} (h : head < slots.length) (a : α) :
    ringEntries (slots.set head a) ((head + 1) % slots.length) slots.length =
      (ringEntries slots head slots.length).tail ++ [a] := by
  have hall (l : List α) (n : Nat) (hl : l.length = slots.length) : (l.rotate n).take slots.length = l.rotate n :=
    List.take_of_length_le (by rw [List.length_rotate, hl])
  unfold ringEntries
  rw [hall _ _ List.length_set, hall _ _ rfl]
  have hset : slots.set head a = slots.take head ++ a :: slots.drop (head + 1) := by
    rw [List.set_eq_take_append_cons_drop, if_pos h]
  have hmod := List.rotate_mod (slots.set head a) (head + 1)
  rw [List.length_set] at hmod
  rw [hmod, List.rotate_eq_drop_append_take h.le, List.drop_eq_getElem_cons h, List.cons_append, List.tail_cons, hset,
    ← List.rotate_rotate]
  have hturn := List.rotate_append_length_eq (slots.take head) (a :: slots.drop (head + 1))
  rw [List.length_take, min_eq_left h.le] at hturn
  rw [hturn, List.cons_append, List.rotate_cons_succ, List.rotate_zero]

/-! ## The last entries of a history -/

theorem rtake_concat_of_lt {l : List α} {n : Nat} (h : l.length < n) (a : α) :
    (l ++ [a]).rtake n = l.rtake n ++ [a] := by
  unfold List.rtake
  have hconcat : (l ++ [a]).length - n = 0 := by
    rw [List.length_append, List.length_singleton]
    omega
  rw [hconcat, Nat.sub_eq_zero_of_le h.le, List.drop_zero, List.drop_zero]

theorem rtake_concat_of_ge {l : List α} {n : Nat} (hpos : 0 < n) (h : n ≤ l.length) (a : α) :
    (l ++ [a]).rtake n = (l.rtake n).tail ++ [a] := by
  unfold List.rtake
  have hconcat : (l ++ [a]).length - n = l.length - n + 1 := by
    rw [List.length_append, List.length_singleton]
    omega
  rw [hconcat, List.drop_append_of_le_length (by omega), List.tail_drop]

theorem length_rtake (l : List α) (n : Nat) : (l.rtake n).length = min n l.length := by
  unfold List.rtake
  rw [List.length_drop]
  omega

/-- A ring with room for some entry holds the last entries of `history`; it turns only once it is full. -/
structure RingHolds (slots : List α) (head : Nat) (history : List α) : Prop where
  head_lt : head < slots.length
  head_eq : history.length < slots.length → head = 0
  entries : ringEntries slots head (min slots.length history.length) = history.rtake slots.length

namespace RingHolds

variable {slots : List α} {head : Nat} {history : List α}

theorem empty (h : 0 < slots.length) : RingHolds slots 0 [] where
  head_lt := h
  head_eq _ := rfl
  entries := by simp [ringEntries]

theorem fill (h : RingHolds slots head history) (hroom : history.length < slots.length) (a : α) :
    RingHolds (slots.set history.length a) head (history ++ [a]) := by
  have hentries := h.entries
  have hhead := h.head_eq hroom
  subst hhead
  refine ⟨?_, fun _ => rfl, ?_⟩
  · rw [List.length_set]
    exact h.head_lt
  · have hmin : min slots.length (history ++ [a]).length = history.length + 1 := by
      rw [List.length_append, List.length_singleton]
      omega
    rw [min_eq_right hroom.le] at hentries
    rw [List.length_set, hmin, ringEntries_fill hroom, hentries, rtake_concat_of_lt hroom]

theorem replace (h : RingHolds slots head history) (hfull : slots.length ≤ history.length) (a : α) :
    RingHolds (slots.set head a) ((head + 1) % slots.length) (history ++ [a]) := by
  have hentries := h.entries
  have hpos : 0 < slots.length := lt_of_le_of_lt (Nat.zero_le _) h.head_lt
  have hlen : (history ++ [a]).length = history.length + 1 := by rw [List.length_append, List.length_singleton]
  refine ⟨?_, ?_, ?_⟩
  · rw [List.length_set]
    exact Nat.mod_lt _ hpos
  · rw [List.length_set, hlen]
    omega
  · rw [min_eq_left hfull] at hentries
    rw [List.length_set, hlen, min_eq_left (by omega), ringEntries_replace h.head_lt, hentries,
      rtake_concat_of_ge hpos hfull]

theorem oldest (h : RingHolds slots head history) (hfull : slots.length ≤ history.length) :
    (history.rtake slots.length).head? = slots[head]? := by
  have hall : (slots.rotate head).take slots.length = slots.rotate head :=
    List.take_of_length_le (List.length_rotate slots head).le
  rw [← h.entries, min_eq_left hfull, ringEntries, hall, List.head?_rotate h.head_lt]

end RingHolds

end DevP2P.Lib
