import DevP2P.Lib.Bytes
import DevP2P.Lib.Outcome

/-!
# RLP constants, errors and types

The constants of `rlp/constants.hpp`, the error enumerations of `rlp/errors.hpp` and the unsigned
integer types the codec is instantiated at.
-/

namespace DevP2P.Rlp
open DevP2P.Lib

/-- A view of bytes that are not owned; as a value, the bytes it shows. -/
abbrev ByteView := Bytes

def kEmptyStringCode : UInt8 := 0x80
def kMaxShortStringLen : Nat := 55
def kMaxShortListLen : Nat := 55
def kShortStringOffset : Nat := 0x80
def kLongStringOffset : Nat := 0xB7
def kShortListOffset : Nat := 0xC0
def kLongListOffset : Nat := 0xF7
def kRlpSingleByteThreshold : Nat := 0x80
def kLongPrefixByteSize : Nat := 1
def kSingleByteStringSize : Nat := 2

/-- The number of values of `size_t` and `uint64_t`. -/
def kSizeModulus : Nat := 2 ^ 64

structure Header where
  list : Bool
  payloadSizeBytes : Nat
  headerSizeBytes : Nat
deriving DecidableEq

inductive EncodingError
  | kPayloadTooLarge
  | kEmptyInput
  | kUnclosedList
  | kUnmatchedEndList
deriving DecidableEq

inductive DecodingError
  | kOverflow
  | kLeadingZero
  | kInputTooShort
  | kInputTooLong
  | kNonCanonicalSize
  | kUnexpectedList
  | kUnexpectedString
  | kUnexpectedLength
  | kUnexpectedListElements
  | kInvalidVrsValue
  | kListLengthMismatch
  | kNotInList
  | kMalformedHeader
  | kAlreadyFinalized
  | kNotFinalized
  | kInvalidChunkSize
  | kHeaderSizeExceeded
deriving DecidableEq

/-- The unsigned integer types of `add<T>` and `read<T>`. -/
inductive UIntTy
  | uint8
  | uint16
  | uint32
  | uint64
  | uint256
deriving DecidableEq

/-- `sizeof(T)`. -/
def UIntTy.sizeof : UIntTy → Nat
  | .uint8 => 1
  | .uint16 => 2
  | .uint32 => 4
  | .uint64 => 8
  | .uint256 => 32

abbrev UIntTy.Val (T : UIntTy) : Type := BitVec (8 * T.sizeof)

theorem UIntTy.sizeof_le (T : UIntTy) : T.sizeof ≤ 32 := by cases T <;> decide

theorem UIntTy.val_lt {T : UIntTy} (v : T.Val) : v.toNat < 256 ^ T.sizeof := by
  have h := v.isLt
  rwa [Nat.pow_mul] at h

theorem UIntTy.toNat_ofNat {T : UIntTy} {n : Nat} (h : n < 256 ^ T.sizeof) :
    (BitVec.ofNat (8 * T.sizeof) n).toNat = n := by
  rw [BitVec.toNat_ofNat, Nat.mod_eq_of_lt]
  rwa [Nat.pow_mul]

end DevP2P.Rlp
