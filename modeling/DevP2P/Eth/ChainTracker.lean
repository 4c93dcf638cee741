import DevP2P.Eth.Objects
import DevP2P.Lib.Ring
import Mathlib.Data.Finset.Card

/-!
# The tracker of announced blocks (`eth/chain_tracker.cpp`, `eth/chain_tracker.hpp`)

A set of hashes for the lookup, and a ring of the same hashes in the order they came in.

* `ChainTracker`, `markSeen`, `reset` : the tracker;
* `Holds t hashes` : the set and the ring hold the last ones of `hashes`; `Holds.remember` : with one hash more;
* `Tracks t accepted` : the tracker after the calls of `mark_seen` in `accepted` returned `true`; `Tracks.markSeen` :
  one call keeps it;
* `Call`, `observe` : sequences of calls, with what was accepted;
* `chainTracker_fifo_window` : the tracker is a first-in-first-out window over what was accepted.
-/

namespace DevP2P.Eth
open DevP2P.Lib DevP2P.Rlp

def kDefaultWindowSize : Nat := 1024

structure ChainTracker where
  windowSize : Nat
  tipNumber : Uint64
  tipHash : Option Hash256
  seenSet : Finset Hash256
  /-- Hashes in the order they came in, around the ring. -/
  evictionQueue : List Hash256
  /-- The index of the oldest entry. -/
  evictionHead : Nat
deriving DecidableEq

namespace ChainTracker

def new (windowSize : Nat) : ChainTracker :=
  let windowSize := if windowSize = 0 then kDefaultWindowSize else windowSize
  { windowSize, tipNumber := 0, tipHash := none, seenSet := ∅, evictionQueue := List.replicate windowSize default,
    evictionHead := 0 }

/-- A new hash: in the ring it takes the place of the oldest one if the window is full, the next slot otherwise. -/
def remember (t : ChainTracker) (blockHash : Hash256) : ChainTracker :=
  if t.seenSet.card ≥ t.windowSize then
    let oldest := t.evictionQueue.getD t.evictionHead default
    { t with
      seenSet := insert blockHash (t.seenSet.erase oldest)
      evictionQueue := t.evictionQueue.set t.evictionHead blockHash
      evictionHead := (t.evictionHead + 1) % t.windowSize }
  else
    { t with
      seenSet := insert blockHash t.seenSet
      evictionQueue := t.evictionQueue.set t.seenSet.card blockHash }

def raiseTip (t : ChainTracker) (blockHash : Hash256) (blockNumber : Uint64) : ChainTracker :=
  if blockNumber > t.tipNumber then { t with tipNumber := blockNumber, tipHash := some blockHash } else t

def markSeen (t : ChainTracker) (blockHash : Hash256) (blockNumber : Uint64) : Bool × ChainTracker :=
  if blockHash ∈ t.seenSet then (false, t)
  else (true, (t.remember blockHash).raiseTip blockHash blockNumber)

def isSeen (t : ChainTracker) (blockHash : Hash256) : Bool := blockHash ∈ t.seenSet

def tip (t : ChainTracker) : Uint64 := t.tipNumber

def seenCount (t : ChainTracker) : Nat := t.seenSet.card

def reset (t : ChainTracker) : ChainTracker :=
  { t with
    tipNumber := 0
    tipHash := none
    seenSet := ∅
    evictionQueue := t.evictionQueue.map fun _ => default
    evictionHead := 0 }

end ChainTracker

/-! ## What the tracker stands for -/

/-- The hash and number of calls of `mark_seen` that returned `true`. -/
abbrev Acceptances := List (Hash256 × Uint64)

namespace Acceptances

/-- The last `w` hashes. -/
def window (accepted : Acceptances) (w : Nat) : List Hash256 := (accepted.map Prod.fst).rtake w

/-- The largest number, zero if there is none. -/
def tip (accepted : Acceptances) : Nat := (accepted.map fun a => a.2.toNat).foldl max 0

/-- The hash of the first block that reached a positive tip. -/
def tipHash (accepted : Acceptances) : Option Hash256 :=
  if accepted.tip = 0 then none else (accepted.find? fun a => a.2.toNat = accepted.tip).map Prod.fst

variable {accepted : Acceptances}

theorem tip_concat (accepted : Acceptances) (a : Hash256 × Uint64) :
    tip (accepted ++ [a]) = max (tip accepted) a.2.toNat := by
  simp [tip]

theorem le_tip {a : Hash256 × Uint64} (h : a ∈ accepted) : a.2.toNat ≤ accepted.tip := by
  induction accepted using List.reverseRecOn with
  | nil => simp at h
  | append_singleton accepted b ih =>
      rw [tip_concat]
      rcases List.mem_append.mp h with h | h
      · exact le_max_of_le_left (ih h)
      · rw [List.mem_singleton.mp h]
        exact le_max_right _ _

theorem exists_tip (h : accepted.tip ≠ 0) : ∃ a ∈ accepted, a.2.toNat = accepted.tip := by
  induction accepted using List.reverseRecOn with
  | nil => exact absurd rfl h
  | append_singleton accepted b ih =>
      rw [tip_concat] at h ⊢
      rcases Nat.lt_or_ge (tip accepted) b.2.toNat with hb | hb
      · exact ⟨b, by simp, (max_eq_right hb.le).symm⟩
      · rw [max_eq_left hb] at h ⊢
        obtain ⟨a, ha, heq⟩ := ih h
        exact ⟨a, List.mem_append_left _ ha, heq⟩

theorem tipHash_concat_of_lt {a : Hash256 × Uint64} (h : accepted.tip < a.2.toNat) :
    tipHash (accepted ++ [a]) = some a.1 := by
  have hnone : accepted.find? (fun b => b.2.toNat = a.2.toNat) = none := by
    rw [List.find?_eq_none]
    intro b hb
    have := le_tip hb
    simp only [decide_eq_true_eq]
    omega
  unfold tipHash
  rw [tip_concat, max_eq_right h.le, if_neg (by omega), List.find?_append, hnone]
  simp

theorem tipHash_concat_of_ge {a : Hash256 × Uint64} (h : a.2.toNat ≤ accepted.tip) :
    tipHash (accepted ++ [a]) = accepted.tipHash := by
  unfold tipHash
  rw [tip_concat, max_eq_left h]
  by_cases h0 : accepted.tip = 0
  · rw [if_pos h0, if_pos h0]
  · obtain ⟨b, hb, heq⟩ := exists_tip h0
    have hsome : (accepted.find? fun b => b.2.toNat = accepted.tip).isSome := by
      rw [List.find?_isSome]
      exact ⟨b, hb, by simp [heq]⟩
    rw [if_neg h0, if_neg h0, List.find?_append, Option.or_of_isSome hsome]

end Acceptances

/-! ## The invariant -/

/-- The set and the ring hold the last ones of `hashes`. -/
structure Holds (t : ChainTracker) (hashes : List Hash256) : Prop where
  size : t.evictionQueue.length = t.windowSize
  ring : RingHolds t.evictionQueue t.evictionHead hashes
  nodup : (hashes.rtake t.windowSize).Nodup
  seen : t.seenSet = (hashes.rtake t.windowSize).toFinset

/-- The tracker after the calls in `accepted` were accepted. -/
structure Tracks (t : ChainTracker) (accepted : Acceptances) : Prop where
  holds : Holds t (accepted.map Prod.fst)
  tipNumber : t.tipNumber.toNat = accepted.tip
  tipHash : t.tipHash = accepted.tipHash

theorem toFinset_erase_head {α : Type} [DecidableEq α] {a : α} {l : List α} (hnodup : l.Nodup) (ha : l.head? = some a) :
    l.toFinset.erase a = l.tail.toFinset := by
  obtain ⟨l, rfl⟩ := List.head?_eq_some_iff.mp ha
  obtain ⟨hmem, -⟩ := List.nodup_cons.mp hnodup
  rw [List.toFinset_cons, List.tail_cons, Finset.erase_insert (by simpa using hmem)]

theorem toFinset_concat {α : Type} [DecidableEq α] (l : List α) (a : α) :
    (l ++ [a]).toFinset = insert a l.toFinset := by
  ext x
  simp

theorem nodup_concat {α : Type} {l : List α} {a : α} (hl : l.Nodup) (ha : a ∉ l) : (l ++ [a]).Nodup := by
  rw [List.nodup_append_comm, List.singleton_append, List.nodup_cons]
  exact ⟨ha, hl⟩

namespace Holds

variable {t : ChainTracker} {hashes : List Hash256}

theorem nil (hsize : t.evictionQueue.length = t.windowSize) (hpos : 0 < t.windowSize) (hhead : t.evictionHead = 0)
    (hseen : t.seenSet = ∅) : Holds t [] where
  size := hsize
  ring := by
    rw [hhead]
    exact RingHolds.empty (hsize ▸ hpos)
  nodup := by simp
  seen := by simp [hseen]

theorem windowSize_pos (h : Holds t hashes) : 0 < t.windowSize := by
  rw [← h.size]
  exact lt_of_le_of_lt (Nat.zero_le _) h.ring.head_lt

theorem mem_seenSet (h : Holds t hashes) (blockHash : Hash256) :
    blockHash ∈ t.seenSet ↔ blockHash ∈ hashes.rtake t.windowSize := by
  rw [h.seen, List.mem_toFinset]

theorem card_seenSet (h : Holds t hashes) : t.seenSet.card = min t.windowSize hashes.length := by
  rw [h.seen, List.toFinset_card_of_nodup h.nodup, length_rtake]

theorem oldest (h : Holds t hashes) (hfull : t.windowSize ≤ hashes.length) :
    (hashes.rtake t.windowSize).head? = some (t.evictionQueue.getD t.evictionHead default) := by
  have hhead := h.ring.oldest (h.size.symm ▸ hfull)
  rw [h.size, List.getElem?_eq_getElem h.ring.head_lt] at hhead
  rw [hhead, List.getD_eq_getElem?_getD, List.getElem?_eq_getElem h.ring.head_lt]
  rfl

theorem remember (h : Holds t hashes) {blockHash : Hash256} (hnew : blockHash ∉ t.seenSet) :
    Holds (t.remember blockHash) (hashes ++ [blockHash]) := by
  have hmem := mt (h.mem_seenSet blockHash).mpr hnew
  have hcard := h.card_seenSet
  unfold ChainTracker.remember
  by_cases hfull : t.seenSet.card ≥ t.windowSize
  · have hle : t.windowSize ≤ hashes.length := by omega
    have hrtake := rtake_concat_of_ge h.windowSize_pos hle blockHash
    rw [if_pos hfull]
    refine ⟨List.length_set.trans h.size, ?_, ?_, ?_⟩
    · have hring := h.ring.replace (h.size.symm ▸ hle) blockHash
      rwa [h.size] at hring
    · rw [hrtake]
      exact nodup_concat h.nodup.tail fun htail => hmem (List.mem_of_mem_tail htail)
    · rw [hrtake, toFinset_concat, ← toFinset_erase_head h.nodup (h.oldest hle), ← h.seen]
  · have hlt : hashes.length < t.windowSize := by omega
    have hrtake := rtake_concat_of_lt hlt blockHash
    have hslot : t.seenSet.card = hashes.length := by omega
    rw [if_neg hfull]
    refine ⟨List.length_set.trans h.size, ?_, ?_, ?_⟩
    · show RingHolds (t.evictionQueue.set t.seenSet.card blockHash) t.evictionHead _
      rw [hslot]
      exact h.ring.fill (h.size.symm ▸ hlt) blockHash
    · rw [hrtake]
      exact nodup_concat h.nodup hmem
    · rw [hrtake, toFinset_concat, ← h.seen]

end Holds

namespace ChainTracker

variable (t : ChainTracker) (blockHash : Hash256) (blockNumber : Uint64)

theorem windowSize_remember : (t.remember blockHash).windowSize = t.windowSize := by
  unfold remember
  split_ifs <;> rfl

theorem tip_remember : (t.remember blockHash).tipNumber = t.tipNumber ∧ (t.remember blockHash).tipHash = t.tipHash := by
  unfold remember
  split_ifs
  · exact ⟨rfl, rfl⟩
  · exact ⟨rfl, rfl⟩

theorem windowSize_markSeen : (t.markSeen blockHash blockNumber).2.windowSize = t.windowSize := by
  unfold markSeen raiseTip
  split_ifs
  · rfl
  · exact t.windowSize_remember blockHash
  · exact t.windowSize_remember blockHash

end ChainTracker

theorem Holds.raiseTip {t : ChainTracker} {hashes : List Hash256} (h : Holds t hashes) (blockHash : Hash256)
    (blockNumber : Uint64) :
    Holds (t.raiseTip blockHash blockNumber) hashes := by
  unfold ChainTracker.raiseTip
  split_ifs
  · exact ⟨h.size, h.ring, h.nodup, h.seen⟩
  · exact h

namespace Tracks

variable {t : ChainTracker} {accepted : Acceptances}

theorem new (windowSize : Nat) : Tracks (.new windowSize) [] where
  holds := by
    refine Holds.nil List.length_replicate ?_ rfl rfl
    show 0 < if windowSize = 0 then kDefaultWindowSize else windowSize
    split_ifs with h
    · decide
    · omega
  tipNumber := rfl
  tipHash := rfl

theorem reset (h : Tracks t accepted) : Tracks t.reset [] where
  holds := Holds.nil (List.length_map _ |>.trans h.holds.size) h.holds.windowSize_pos rfl rfl
  tipNumber := rfl
  tipHash := rfl

theorem accept (h : Tracks t accepted) {blockHash : Hash256} (hnew : blockHash ∉ t.seenSet) (blockNumber : Uint64) :
    Tracks ((t.remember blockHash).raiseTip blockHash blockNumber) (accepted ++ [(blockHash, blockNumber)]) := by
  obtain ⟨htip, htipHash⟩ := t.tip_remember blockHash
  have hhigher : blockNumber > (t.remember blockHash).tipNumber ↔ accepted.tip < blockNumber.toNat := by
    rw [htip, ← h.tipNumber]
    exact BitVec.lt_def
  have hholds : Holds ((t.remember blockHash).raiseTip blockHash blockNumber)
      ((accepted ++ [(blockHash, blockNumber)]).map Prod.fst) := by
    rw [List.map_append]
    exact (h.holds.remember hnew).raiseTip blockHash blockNumber
  refine ⟨hholds, ?_, ?_⟩
  · unfold ChainTracker.raiseTip
    rw [Acceptances.tip_concat]
    split_ifs with hgt
    · exact (max_eq_right (hhigher.mp hgt).le).symm
    · rw [htip, h.tipNumber, max_eq_left (not_lt.mp (mt hhigher.mpr hgt))]
  · unfold ChainTracker.raiseTip
    split_ifs with hgt
    · exact (Acceptances.tipHash_concat_of_lt (a := (blockHash, blockNumber)) (hhigher.mp hgt)).symm
    · rw [htipHash, h.tipHash, Acceptances.tipHash_concat_of_ge (a := (blockHash, blockNumber))
        (not_lt.mp (mt hhigher.mpr hgt))]

/-- `mark_seen` refuses what is in the window, and accepts everything else. -/
theorem markSeen_eq_false_iff (h : Tracks t accepted) (blockHash : Hash256) (blockNumber : Uint64) :
    (t.markSeen blockHash blockNumber).1 = false ↔ blockHash ∈ accepted.window t.windowSize := by
  unfold ChainTracker.markSeen
  rw [Acceptances.window, ← h.holds.mem_seenSet]
  split_ifs with hseen
  · exact iff_of_true rfl hseen
  · exact iff_of_false (by simp) hseen

theorem markSeen (h : Tracks t accepted) (blockHash : Hash256) (blockNumber : Uint64) :
    Tracks (t.markSeen blockHash blockNumber).2
      (if (t.markSeen blockHash blockNumber).1 then accepted ++ [(blockHash, blockNumber)] else accepted) := by
  unfold ChainTracker.markSeen
  by_cases hseen : blockHash ∈ t.seenSet
  · rw [if_pos hseen]
    exact h
  · rw [if_neg hseen]
    exact h.accept hseen blockNumber

end Tracks

/-! ## Sequences of calls -/

inductive ChainTracker.Call
  | markSeen (blockHash : Hash256) (blockNumber : Uint64)
  | reset

/-- One call, and what was accepted since the last reset after it. -/
def ChainTracker.observe (s : ChainTracker × Acceptances) : Call → ChainTracker × Acceptances
  | .markSeen blockHash blockNumber =>
    let (ok, t) := s.1.markSeen blockHash blockNumber
    (t, if ok then s.2 ++ [(blockHash, blockNumber)] else s.2)
  | .reset => (s.1.reset, [])

/-- The tracker and what it accepted, after `calls`. -/
def ChainTracker.run (windowSize : Nat) (calls : List Call) : ChainTracker × Acceptances :=
  calls.foldl observe (.new windowSize, [])

theorem tracks_observe {s : ChainTracker × Acceptances} (h : Tracks s.1 s.2) (call : ChainTracker.Call) :
    Tracks (ChainTracker.observe s call).1 (ChainTracker.observe s call).2 ∧
      (ChainTracker.observe s call).1.windowSize = s.1.windowSize := by
  cases call with
  | markSeen blockHash blockNumber =>
      exact ⟨h.markSeen blockHash blockNumber, s.1.windowSize_markSeen blockHash blockNumber⟩
  | reset => exact ⟨h.reset, rfl⟩

theorem tracks_run (windowSize : Nat) (calls : List ChainTracker.Call) :
    Tracks (ChainTracker.run windowSize calls).1 (ChainTracker.run windowSize calls).2 ∧
      (ChainTracker.run windowSize calls).1.windowSize = if windowSize = 0 then kDefaultWindowSize else windowSize := by
  unfold ChainTracker.run
  induction calls using List.reverseRecOn with
  | nil => exact ⟨Tracks.new windowSize, rfl⟩
  | append_singleton calls call ih =>
      rw [List.foldl_concat]
      obtain ⟨htracks, hwindow⟩ := tracks_observe ih.1 call
      exact ⟨htracks, hwindow.trans ih.2⟩

/-- After any calls, the tracker is a window over the last hashes it accepted. -/
theorem chainTracker_fifo_window (windowSize : Nat) (calls : List ChainTracker.Call) :
    let (t, accepted) := ChainTracker.run windowSize calls
    let w := if windowSize = 0 then 1024 else windowSize
    (∀ blockHash blockNumber, (t.markSeen blockHash blockNumber).1 = false ↔ blockHash ∈ accepted.window w) ∧
      (∀ blockHash, t.isSeen blockHash = true ↔ blockHash ∈ accepted.window w) ∧
      t.seenCount = min w accepted.length ∧ t.tip.toNat = accepted.tip ∧ t.tipHash = accepted.tipHash := by
  obtain ⟨htracks, hwindow⟩ := tracks_run windowSize calls
  generalize ChainTracker.run windowSize calls = s at htracks hwindow
  obtain ⟨t, accepted⟩ := s
  have hw : t.windowSize = if windowSize = 0 then 1024 else windowSize := hwindow
  dsimp only at htracks ⊢
  rw [← hw]
  refine ⟨htracks.markSeen_eq_false_iff, ?_, ?_, htracks.tipNumber, htracks.tipHash⟩
  · intro blockHash
    rw [Acceptances.window, ← htracks.holds.mem_seenSet]
    exact decide_eq_true_iff
  · rw [← List.length_map Prod.fst]
    exact htracks.holds.card_seenSet

end DevP2P.Eth
