import DevP2P.Lib.Runs
import DevP2P.Rlp.Encoder
import Mathlib.Data.List.Pairwise

/-!
# Nested lists

A forest of items drives one encoder: `add(ByteView)` for a string, `BeginList`, the children and
`EndList` for a list.

* `Item.calls`, `callsAll` : the calls for an item and for a forest;
* `RlpEncoder.WellFormed` : the stack of list starts is non-decreasing and stays inside the buffer;
* `steps_calls`, `steps_callsAll` : from a well-formed encoder all calls succeed, the encoder stays
  well-formed, and the encoding is appended;
* `encoder_builds_nested_lists` : from a fresh encoder, `GetBytes` is the encoding of the forest.
-/

namespace DevP2P.Rlp
open DevP2P.Lib

/-- A call on the encoder. -/
inductive Call
  | add (s : Bytes)
  | beginList
  | endList

def Call.run : Call → EncodeM Unit
  | .add s => addBytes s
  | .beginList => Rlp.beginList
  | .endList => Rlp.endList

mutual

def Item.calls : Item → List Call
  | .string s => [.add s]
  | .list items => .beginList :: (callsAll items ++ [.endList])

def callsAll : List Item → List Call
  | [] => []
  | item :: items => item.calls ++ callsAll items

end

/-- The list starts are non-decreasing and none of them is behind the end of the buffer. -/
structure RlpEncoder.WellFormed (e : RlpEncoder) : Prop where
  sorted : e.listStartPositions.Pairwise (· ≤ ·)
  le_size : ∀ p ∈ e.listStartPositions, p ≤ e.buffer.length

namespace RlpEncoder.WellFormed

variable {buf : Bytes} {starts : List Nat}

theorem new : RlpEncoder.new.WellFormed := ⟨List.Pairwise.nil, nofun⟩

theorem append (h : WellFormed ⟨buf, starts⟩) (b : Bytes) : WellFormed ⟨buf ++ b, starts⟩ := by
  refine ⟨h.sorted, fun p hp => ?_⟩
  have := h.le_size p hp
  simp only [List.length_append] at this ⊢
  omega

theorem push (h : WellFormed ⟨buf, starts⟩) : WellFormed ⟨buf, starts ++ [buf.length]⟩ := by
  refine ⟨?_, fun p hp => ?_⟩
  · simp only [List.pairwise_append, List.pairwise_cons, List.mem_singleton]
    refine ⟨h.sorted, ⟨nofun, List.Pairwise.nil⟩, fun p hp q hq => ?_⟩
    rw [hq]
    exact h.le_size p hp
  · rcases List.mem_append.mp hp with hp | hp
    · exact h.le_size p hp
    · rw [List.mem_singleton.mp hp]

end RlpEncoder.WellFormed

/-- The calls `calls` turn an encoder into `e'` and keep it well-formed at every step. -/
abbrev Runs (e : RlpEncoder) (calls : List Call) (e' : RlpEncoder) : Prop :=
  Steps Call.run RlpEncoder.WellFormed e calls e'

mutual

theorem steps_calls {buf : Bytes} {starts : List Nat} (hw : RlpEncoder.WellFormed ⟨buf, starts⟩) :
    (item : Item) → item.encode.length < kSizeModulus →
      Runs ⟨buf, starts⟩ item.calls ⟨buf ++ item.encode, starts⟩
  | .string s, hlen => by
      rw [Item.encode_string] at hlen ⊢
      rw [Item.calls]
      have hs := lt_of_le_of_lt (length_le_encodeString s) hlen
      exact .single hw (addBytes_run hs buf starts) (hw.append _)
  | .list items, hlen => by
      rw [Item.encode_list] at hlen ⊢
      rw [Item.calls]
      have hp := lt_of_le_of_lt (length_le_encodeList (encodeAll items)) hlen
      have hbody := steps_callsAll hw.push items hp
      -- the header goes in front of what the children appended since `BeginList`
      have hend := endList_run hp buf starts
      exact .cons hw (beginList_run buf starts) (hbody.append (.single hbody.inv_end hend (hw.append _)))

theorem steps_callsAll {buf : Bytes} {starts : List Nat} (hw : RlpEncoder.WellFormed ⟨buf, starts⟩) :
    (items : List Item) → (encodeAll items).length < kSizeModulus →
      Runs ⟨buf, starts⟩ (callsAll items) ⟨buf ++ encodeAll items, starts⟩
  | [], _ => by
      rw [callsAll, encodeAll_nil, List.append_nil]
      exact .nil hw
  | item :: items, hlen => by
      rw [encodeAll_cons, List.length_append] at hlen
      rw [callsAll, encodeAll_cons, ← List.append_assoc]
      have hitem := steps_calls hw item (by omega)
      exact hitem.append (steps_callsAll hitem.inv_end items (by omega))

end

/-- **One encoder builds any forest of nested lists.** Every call succeeds, after every call the list
starts are non-decreasing and inside the buffer, and `GetBytes` is the encoding of the forest. -/
theorem encoder_builds_nested_lists (items : List Item) (hlen : (encodeAll items).length < 2 ^ 64) :
    (∀ calls, calls <+: callsAll items → ∃ e, runAll Call.run calls RlpEncoder.new = .ok () e ∧
      e.listStartPositions.Pairwise (· ≤ ·) ∧ ∀ p ∈ e.listStartPositions, p ≤ e.buffer.length) ∧
    ∃ e, runAll Call.run (callsAll items) RlpEncoder.new = .ok () e ∧
      getBytes e = .ok (encodeAll items) e := by
  have hrun : Runs RlpEncoder.new (callsAll items) ⟨encodeAll items, []⟩ :=
    steps_callsAll RlpEncoder.WellFormed.new items hlen
  constructor
  · intro calls hpre
    obtain ⟨rest, hrest⟩ := hpre
    rw [← hrest] at hrun
    obtain ⟨e, hsteps, -⟩ := hrun.of_append
    exact ⟨e, hsteps.runAll_eq, hsteps.inv_end.sorted, hsteps.inv_end.le_size⟩
  · exact ⟨_, hrun.runAll_eq, getBytes_run _⟩

/-- Two lists that start at one offset, an empty list and a string. -/
theorem encoder_builds_nested_lists_set : ∃ e,
    runAll Call.run (callsAll [.list [.list [], .list [.list []]], .string [0x64, 0x6f, 0x67]])
      RlpEncoder.new = .ok () e ∧
    getBytes e = .ok (encodeAll [.list [.list [], .list [.list []]], .string [0x64, 0x6f, 0x67]]) e :=
  (encoder_builds_nested_lists [.list [.list [], .list [.list []]], .string [0x64, 0x6f, 0x67]]
    (by decide)).2

end DevP2P.Rlp
