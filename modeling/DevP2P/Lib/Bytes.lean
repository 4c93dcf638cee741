import Mathlib.Data.List.Basic
import Mathlib.Data.UInt

/-!
# Byte strings, fixed-size byte arrays and bytewise xor

* `Bytes` : a byte string; `Bytes.at` reads one byte, `0` past the end;
* `FixedBytes n` : an array of exactly `n` bytes, the size a field of the value; `FixedBytes.load`
  copies the first `n` bytes of a string into a zeroed array;
* `xorBytes` : bytewise xor, its own inverse (`xorBytes_xorBytes`);
* `streamXor ks pos` : xor with the keystream `ks` from position `pos` on, its own inverse
  (`streamXor_streamXor`) and additive along concatenation (`streamXor_append`).
-/

namespace DevP2P.Lib

abbrev Bytes := List UInt8

/-- Byte `i` of a string, `0` past its end. -/
def Bytes.at (b : Bytes) (i : Nat) : UInt8 := b.getD i 0

@[simp] theorem Bytes.at_cons_zero (x : UInt8) (b : Bytes) : Bytes.at (x :: b) 0 = x := rfl

@[simp] theorem Bytes.at_cons_succ (x : UInt8) (b : Bytes) (i : Nat) :
    Bytes.at (x :: b) (i + 1) = Bytes.at b i := rfl

theorem Bytes.at_append_left {a : Bytes} {i : Nat} (h : i < a.length) (b : Bytes) :
    Bytes.at (a ++ b) i = Bytes.at a i := by
  simp [Bytes.at, List.getD_eq_getElem?_getD, List.getElem?_append_left h]

theorem Bytes.at_append_right (a b : Bytes) (i : Nat) :
    Bytes.at (a ++ b) (a.length + i) = Bytes.at b i := by
  simp only [Bytes.at, List.getD_eq_getElem?_getD]
  rw [List.getElem?_append_right (Nat.le_add_right _ _), Nat.add_sub_cancel_left]

def ascii (s : List Char) : Bytes := s.map fun c => UInt8.ofNat c.toNat

theorem forall_uint8 {P : UInt8 → Prop} (h : ∀ n < 256, P (UInt8.ofNat n)) (c : UInt8) : P c := by
  have hc := h c.toNat c.toNat_lt
  rwa [UInt8.ofNat_toNat] at hc

theorem uint8_eq_of_toNat {x y : UInt8} (h : x.toNat = y.toNat) : x = y := UInt8.toNat_inj.mp h

/-! ## Arrays of a fixed size -/

/-- An array of exactly `n` bytes. -/
structure FixedBytes (n : Nat) where
  bytes : Bytes
  size_eq : bytes.length = n
deriving DecidableEq

namespace FixedBytes

variable {n : Nat}

@[simp] theorem length_bytes (a : FixedBytes n) : a.bytes.length = n := a.size_eq

@[ext] theorem ext {a b : FixedBytes n} (h : a.bytes = b.bytes) : a = b := by
  cases a; cases b; simpa using h

def zero (n : Nat) : FixedBytes n := ⟨List.replicate n 0, List.length_replicate⟩

instance : Inhabited (FixedBytes n) := ⟨zero n⟩

/-- The first `n` bytes of `b`, copied into a zeroed array. -/
def load (n : Nat) (b : Bytes) : FixedBytes n :=
  ⟨(b ++ List.replicate n 0).take n, by simp⟩

theorem bytes_load {b : Bytes} (h : n ≤ b.length) : (load n b).bytes = b.take n := by
  simp [load, List.take_append_of_le_length h]

theorem bytes_load_self {b : Bytes} (h : b.length = n) : (load n b).bytes = b := by
  rw [bytes_load (le_of_eq h.symm), List.take_of_length_le (le_of_eq h)]

@[simp] theorem load_bytes (a : FixedBytes n) : load n a.bytes = a :=
  ext (bytes_load_self a.size_eq)

theorem load_append (a : FixedBytes n) (b : Bytes) : load n (a.bytes ++ b) = a := by
  apply ext
  rw [bytes_load (by simp)]
  exact List.take_left' a.size_eq

end FixedBytes

/-! ## Bytewise xor -/

def xorBytes (a b : Bytes) : Bytes := List.zipWith (· ^^^ ·) a b

@[simp] theorem length_xorBytes (a b : Bytes) : (xorBytes a b).length = min a.length b.length := by
  simp [xorBytes]

def FixedBytes.xor {n : Nat} (a b : FixedBytes n) : FixedBytes n :=
  ⟨xorBytes a.bytes b.bytes, by simp⟩

/-! ## Keystream xor -/

/-- Xor with the keystream `ks` from position `pos` on. -/
def streamXor (ks : Nat → UInt8) : Nat → Bytes → Bytes
  | _, [] => []
  | pos, x :: b => (x ^^^ ks pos) :: streamXor ks (pos + 1) b

@[simp] theorem streamXor_nil (ks : Nat → UInt8) (pos : Nat) : streamXor ks pos [] = [] := rfl

@[simp] theorem length_streamXor (ks : Nat → UInt8) (pos : Nat) (b : Bytes) :
    (streamXor ks pos b).length = b.length := by
  induction b generalizing pos with
  | nil => rfl
  | cons x b ih => simp [streamXor, ih]

@[simp] theorem streamXor_streamXor (ks : Nat → UInt8) (pos : Nat) (b : Bytes) :
    streamXor ks pos (streamXor ks pos b) = b := by
  induction b generalizing pos with
  | nil => rfl
  | cons x b ih =>
      rw [streamXor, streamXor, ih, UInt8.xor_assoc, UInt8.xor_self, UInt8.xor_zero]

theorem streamXor_append (ks : Nat → UInt8) (pos : Nat) (a b : Bytes) :
    streamXor ks pos (a ++ b) = streamXor ks pos a ++ streamXor ks (pos + a.length) b := by
  induction a generalizing pos with
  | nil => rfl
  | cons x a ih =>
      simp only [List.cons_append, streamXor, ih, List.length_cons]
      rw [show pos + 1 + a.length = pos + (a.length + 1) by omega]

end DevP2P.Lib
