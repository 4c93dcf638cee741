import Mathlib.Algebra.Order.Floor.Div
import Mathlib.Data.List.Basic
import Mathlib.GroupTheory.GroupAction.Ring

/-!
# Consecutive pieces of a list

* `fullPieces n xs`, `rest n xs` : the pieces of exactly `n` elements, and what follows them;
* `pieces n xs` : the same with the shorter last piece, if there is one; `pieces_eq` : both together;
* `fullPieces_append_of_lt`, `fullPieces_append_of_eq` : more elements, before and when they complete a piece;
* `flatten_pieces`, `length_pieces`, `ne_nil_of_mem_pieces` : nothing is lost, how many there are, none is empty.
-/

namespace DevP2P.Lib

variable {α : Type}

/-- Piece `i`: the elements from `n * i` on, at most `n` of them. -/
def piece (n : Nat) (xs : List α) (i : Nat) : List α := (xs.drop (n * i)).take n

/-- The pieces of exactly `n` elements. -/
def fullPieces (n : Nat) (xs : List α) : List (List α) := (List.range (xs.length / n)).map (piece n xs)

def rest (n : Nat) (xs : List α) : List α := xs.drop (n * (xs.length / n))

/-- The consecutive pieces of `n` elements, the last one possibly shorter. -/
def pieces (n : Nat) (xs : List α) : List (List α) := (List.range (xs.length ⌈/⌉ n)).map (piece n xs)

variable {n : Nat} {xs ys : List α}

@[simp] theorem fullPieces_nil (n : Nat) : fullPieces n ([] : List α) = [] := by
  simp [fullPieces]

@[simp] theorem rest_nil (n : Nat) : rest n ([] : List α) = [] := by
  simp [rest]

theorem length_rest (n : Nat) (xs : List α) : (rest n xs).length = xs.length % n := by
  have := Nat.div_add_mod xs.length n
  rw [rest, List.length_drop]
  omega

theorem length_fullPieces (n : Nat) (xs : List α) : (fullPieces n xs).length = xs.length / n := by
  simp [fullPieces]

theorem length_pieces (n : Nat) (xs : List α) : (pieces n xs).length = xs.length ⌈/⌉ n := by
  simp [pieces]

theorem map_piece_append (n : Nat) (xs ys : List α) :
    (List.range (xs.length / n)).map (piece n (xs ++ ys)) = fullPieces n xs := by
  apply List.map_congr_left
  intro i hi
  have hle := Nat.mul_le_mul_left n (Nat.succ_le_of_lt (List.mem_range.mp hi))
  have := Nat.mul_div_le xs.length n
  rw [Nat.mul_succ] at hle
  unfold piece
  rw [List.drop_append_of_le_length (by omega), List.take_append_of_le_length (by rw [List.length_drop]; omega)]

theorem fullPieces_append_of_lt (h : xs.length % n + ys.length < n) : fullPieces n (xs ++ ys) = fullPieces n xs := by
  have hdiv : (xs ++ ys).length / n = xs.length / n := by
    have := Nat.div_add_mod xs.length n
    rw [List.length_append]
    apply Nat.div_eq_of_lt_le
    · rw [Nat.mul_comm]
      omega
    · rw [Nat.succ_mul, Nat.mul_comm]
      omega
  rw [fullPieces, hdiv, map_piece_append]

theorem rest_append_of_lt (h : xs.length % n + ys.length < n) : rest n (xs ++ ys) = rest n xs ++ ys := by
  have hdiv : (xs ++ ys).length / n = xs.length / n := by
    rw [← length_fullPieces, fullPieces_append_of_lt h, length_fullPieces]
  unfold rest
  rw [hdiv, List.drop_append_of_le_length (Nat.mul_div_le _ _)]

theorem length_append_div_of_eq (hn : 0 < n) (h : xs.length % n + ys.length = n) :
    (xs ++ ys).length = n * (xs.length / n + 1) ∧ (xs ++ ys).length / n = xs.length / n + 1 := by
  have hlen : (xs ++ ys).length = n * (xs.length / n + 1) := by
    have := Nat.div_add_mod xs.length n
    rw [List.length_append, Nat.mul_succ]
    omega
  exact ⟨hlen, by rw [hlen, Nat.mul_div_cancel_left _ hn]⟩

theorem fullPieces_append_of_eq (hn : 0 < n) (h : xs.length % n + ys.length = n) :
    fullPieces n (xs ++ ys) = fullPieces n xs ++ [rest n xs ++ ys] := by
  have hlast : piece n (xs ++ ys) (xs.length / n) = rest n xs ++ ys := by
    unfold piece
    rw [List.drop_append_of_le_length (Nat.mul_div_le _ _), ← rest, List.take_of_length_le]
    rw [List.length_append, length_rest]
    omega
  rw [fullPieces, (length_append_div_of_eq hn h).2, List.range_succ, List.map_append, List.map_singleton,
    map_piece_append, hlast]

theorem rest_append_of_eq (hn : 0 < n) (h : xs.length % n + ys.length = n) : rest n (xs ++ ys) = [] := by
  rw [rest, (length_append_div_of_eq hn h).2, ← (length_append_div_of_eq hn h).1, List.drop_length]

theorem pieces_eq (hn : 0 < n) (xs : List α) :
    pieces n xs = fullPieces n xs ++ (if rest n xs = [] then [] else [rest n xs]) := by
  have hmod := Nat.div_add_mod xs.length n
  have hlen := length_rest n xs
  unfold pieces
  rw [Nat.ceilDiv_eq_add_pred_div]
  split_ifs with h
  · rw [h, List.length_nil] at hlen
    have hceil : (xs.length + n - 1) / n = xs.length / n := by
      apply Nat.div_eq_of_lt_le
      · rw [Nat.mul_comm]
        omega
      · rw [Nat.succ_mul, Nat.mul_comm]
        omega
    rw [hceil, List.append_nil]
    rfl
  · have hpos := List.length_pos_iff.mpr h
    have hlt := Nat.mod_lt xs.length hn
    have hceil : (xs.length + n - 1) / n = xs.length / n + 1 := by
      apply Nat.div_eq_of_lt_le
      · rw [Nat.succ_mul, Nat.mul_comm]
        omega
      · rw [Nat.succ_mul, Nat.succ_mul, Nat.mul_comm]
        omega
    rw [hceil, List.range_succ, List.map_append, List.map_singleton]
    congr 2
    exact List.take_of_length_le (by rw [← rest]; omega)

theorem flatten_map_piece (n : Nat) (xs : List α) (k : Nat) :
    ((List.range k).map (piece n xs)).flatten = xs.take (n * k) := by
  induction k with
  | zero => simp
  | succ k ih =>
      rw [List.range_succ, List.map_append, List.flatten_append, ih, List.map_singleton, List.flatten_singleton,
        Nat.mul_succ, List.take_add]
      rfl

theorem flatten_pieces (hn : 0 < n) (xs : List α) : (pieces n xs).flatten = xs := by
  unfold pieces
  rw [flatten_map_piece, List.take_of_length_le]
  exact le_smul_ceilDiv hn

theorem ne_nil_of_mem_pieces (hn : 0 < n) {p : List α} (hp : p ∈ pieces n xs) : p ≠ [] := by
  obtain ⟨i, hi, rfl⟩ := List.mem_map.mp hp
  have hlt : n * i < xs.length := by
    by_contra hge
    have hle := (ceilDiv_le_iff_le_mul hn).mpr (not_lt.mp hge)
    exact absurd (List.mem_range.mp hi) (not_lt.mpr hle)
  have : 0 < (piece n xs i).length := by
    rw [piece, List.length_take, List.length_drop]
    omega
  exact List.length_pos_iff.mp this

end DevP2P.Lib
