import DevP2P.Lib.BigEndian

/-!
# The RLP format

The encoding the Yellow Paper defines, on byte strings and on trees of them.

* `headerBytes list n` : the header in front of a payload of `n` bytes;
* `encodeString`, `encodeList` : one item, a string or a list with a given payload;
* `Item` : a tree of byte strings; `Item.encode`, `encodeAll` : its encoding and that of a forest.
-/

namespace DevP2P.Rlp
open DevP2P.Lib

/-- The header in front of a payload of `n` bytes. -/
def headerBytes (list : Bool) (n : Nat) : Bytes :=
  if n < 56 then [UInt8.ofNat ((if list then 192 else 128) + n)]
  else UInt8.ofNat ((if list then 247 else 183) + byteLength n) :: beBytes n

/-- A byte string as an item; a single byte below `128` stands for itself. -/
def encodeString (s : Bytes) : Bytes :=
  if s.length = 1 ∧ (Bytes.at s 0).toNat < 128 then s else headerBytes false s.length ++ s

/-- The list item whose elements are encoded by `payload`. -/
def encodeList (payload : Bytes) : Bytes := headerBytes true payload.length ++ payload

inductive Item
  | string (s : Bytes)
  | list (items : List Item)

mutual

def Item.encode : Item → Bytes
  | .string s => encodeString s
  | .list items => encodeList (encodeAll items)

def encodeAll : List Item → Bytes
  | [] => []
  | item :: items => item.encode ++ encodeAll items

end

@[simp] theorem Item.encode_string (s : Bytes) : (Item.string s).encode = encodeString s := by
  rw [Item.encode]

@[simp] theorem Item.encode_list (items : List Item) :
    (Item.list items).encode = encodeList (encodeAll items) := by
  rw [Item.encode]

@[simp] theorem encodeAll_nil : encodeAll [] = [] := by rw [encodeAll]

@[simp] theorem encodeAll_cons (item : Item) (items : List Item) :
    encodeAll (item :: items) = item.encode ++ encodeAll items := by
  rw [encodeAll]

/-! ## Headers -/

theorem headerBytes_of_lt {n : Nat} (h : n < 56) (list : Bool) :
    headerBytes list n = [UInt8.ofNat ((if list then 192 else 128) + n)] := if_pos h

theorem headerBytes_of_ge {n : Nat} (h : 56 ≤ n) (list : Bool) :
    headerBytes list n = UInt8.ofNat ((if list then 247 else 183) + byteLength n) :: beBytes n :=
  if_neg (by omega)

theorem length_headerBytes_of_lt {n : Nat} (h : n < 56) (list : Bool) :
    (headerBytes list n).length = 1 := by
  rw [headerBytes_of_lt h, List.length_singleton]

theorem length_headerBytes_of_ge {n : Nat} (h : 56 ≤ n) (list : Bool) :
    (headerBytes list n).length = 1 + byteLength n := by
  rw [headerBytes_of_ge h, List.length_cons, length_beBytes, Nat.add_comm]

theorem headerBytes_ne_nil (list : Bool) (n : Nat) : headerBytes list n ≠ [] := by
  unfold headerBytes
  split_ifs <;> simp

theorem byteLength_le_eight {n : Nat} (h : n < 2 ^ 64) : byteLength n ≤ 8 :=
  (byteLength_le_iff n 8).mpr (by norm_num; exact h)

theorem encodeString_of_single {s : Bytes} (h : s.length = 1 ∧ (Bytes.at s 0).toNat < 128) :
    encodeString s = s := if_pos h

theorem encodeString_of_not_single {s : Bytes} (h : ¬ (s.length = 1 ∧ (Bytes.at s 0).toNat < 128)) :
    encodeString s = headerBytes false s.length ++ s := if_neg h

theorem length_le_encodeString (s : Bytes) : s.length ≤ (encodeString s).length := by
  unfold encodeString
  split_ifs
  · exact le_rfl
  · simp

theorem length_encodeString_pos (s : Bytes) : 0 < (encodeString s).length := by
  unfold encodeString
  split_ifs with h
  · omega
  · rw [List.length_append]
    have := List.length_pos_iff.mpr (headerBytes_ne_nil false s.length)
    omega

theorem length_le_encodeList (payload : Bytes) : payload.length ≤ (encodeList payload).length := by
  simp [encodeList]

end DevP2P.Rlp
