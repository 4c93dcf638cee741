import DevP2P.Rlp.Endian
import DevP2P.Rlp.Format

/-!
# The encoder (`rlp/rlp_encoder.cpp`, `rlp/rlp_encoder.hpp`)

`RlpEncoder` keeps the bytes written so far and a stack with the start of every list that is still
open; `endList` inserts the header of the innermost one in front of its payload.

* `addBytes_run`, `beginList_run`, `endList_run` : what one call does to the encoder;
* `encodeHeaderBytes_eq` : the header is the one of the format, for every `size_t` length.
-/

namespace DevP2P.Rlp
open DevP2P.Lib Stateful

/-- The encoder; `listStartPositions` grows at its end. -/
structure RlpEncoder where
  buffer : Bytes
  listStartPositions : List Nat
deriving DecidableEq

abbrev EncodeM := EStateM EncodingError RlpEncoder

namespace RlpEncoder

def new : RlpEncoder := ⟨[], []⟩

end RlpEncoder

/-- `encode_header_bytes`. -/
def encodeHeaderBytes (list : Bool) (payloadSizeBytes : Nat) : Except EncodingError Bytes := do
  let shortOffset := if list then kShortListOffset else kShortStringOffset
  let longOffset := if list then kLongListOffset else kLongStringOffset
  if payloadSizeBytes ≤ kMaxShortStringLen then
    return [UInt8.ofNat (shortOffset + payloadSizeBytes)]
  else
    let lenBe := toBigCompact (T := .uint64) (BitVec.ofNat _ payloadSizeBytes)
    -- the length field has at most eight bytes
    rejectIf (lenBe.length > 8) .kPayloadTooLarge
    return UInt8.ofNat (longOffset + lenBe.length) :: lenBe

/-- `buffer_.append(bytes)`. -/
def appendBuffer (bytes : Bytes) : EncodeM Unit :=
  modify fun e => { e with buffer := e.buffer ++ bytes }

/-- `RlpEncoder::add(ByteView)`. -/
def addBytes (bytes : ByteView) : EncodeM Unit := do
  if bytes.length = 1 ∧ (Bytes.at bytes 0).toNat < kRlpSingleByteThreshold then
    appendBuffer [Bytes.at bytes 0]
  else
    let header ← Stateful.lift (encodeHeaderBytes false bytes.length)
    appendBuffer (header ++ bytes)

/-- `RlpEncoder::AddRaw`. -/
def addRaw (bytes : ByteView) : EncodeM Unit := do
  rejectIf (bytes.isEmpty) .kEmptyInput
  appendBuffer bytes

/-- The bytes `buf[0 .. len)` the wider branches of `add_integral` fill: a byte for every shift that
leaves something of `val`, then the low byte. -/
def significantBytes (shifts : List Nat) (val : Nat) : Bytes :=
  (shifts.filter fun s => val >>> s ≠ 0).map (fun s => UInt8.ofNat (val >>> s))
    ++ [UInt8.ofNat (val &&& 0xFF)]

/-- One of the wider branches of `add_integral`. -/
def addWide (shifts : List Nat) (val : Nat) : EncodeM Unit := do
  if val < kRlpSingleByteThreshold then appendBuffer [UInt8.ofNat val]
  else
    let buf := significantBytes shifts val
    appendBuffer [UInt8.ofNat (kShortStringOffset + buf.length)]
    appendBuffer buf

/-- The branch of `add_integral` for one-byte types. -/
def addByte (val : Nat) : EncodeM Unit := do
  if val < kRlpSingleByteThreshold then appendBuffer [UInt8.ofNat val]
  else
    appendBuffer [UInt8.ofNat (kShortStringOffset + kLongPrefixByteSize)]
    appendBuffer [UInt8.ofNat val]

/-- `RlpEncoder::add(const intx::uint256&)`. -/
def addUint256 (n : UIntTy.Val .uint256) : EncodeM Unit := do
  if n = 0 then appendBuffer [kEmptyStringCode]
  else if n.toNat < kRlpSingleByteThreshold then appendBuffer [UInt8.ofNat n.toNat]
  else
    let be := toBigCompact n
    let header ← Stateful.lift (encodeHeaderBytes false be.length)
    appendBuffer (header ++ be)

/-- `RlpEncoder::add_integral`; the type selects the branch. -/
def addIntegral (T : UIntTy) (n : T.Val) : EncodeM Unit := do
  if n = 0 then appendBuffer [kEmptyStringCode]
  else match T with
    | .uint8 => addByte n.toNat
    | .uint16 => addWide [8] n.toNat
    | .uint32 => addWide [24, 16, 8] n.toNat
    | .uint64 => addWide [56, 48, 40, 32, 24, 16, 8] n.toNat
    | .uint256 => pure ()

/-- `RlpEncoder::add(n)`, overload resolution included. -/
def addUInt : {T : UIntTy} → T.Val → EncodeM Unit
  | .uint256, n => addUint256 n
  | .uint64, n => addIntegral .uint64 n
  | .uint32, n => addIntegral .uint32 n
  | .uint16, n => addIntegral .uint16 n
  | .uint8, n => addIntegral .uint8 n

/-- `RlpEncoder::add(bool)`. -/
def addBool (n : Bool) : EncodeM Unit := appendBuffer [if n then 1 else kEmptyStringCode]

/-- `RlpEncoder::BeginList`. -/
def beginList : EncodeM Unit :=
  modify fun e => { e with listStartPositions := e.listStartPositions ++ [e.buffer.length] }

/-- `RlpEncoder::EndList`. -/
def endList : EncodeM Unit := do
  let e ← get
  match e.listStartPositions.getLast? with
  | none => throw .kUnmatchedEndList
  | some startPos =>
    set { e with listStartPositions := e.listStartPositions.dropLast }
    let payloadLen := e.buffer.length - startPos
    let header ← Stateful.lift (encodeHeaderBytes true payloadLen)
    modify fun e => { e with buffer := e.buffer.take startPos ++ header ++ e.buffer.drop startPos }

/-- `RlpEncoder::GetBytes`. -/
def getBytes : EncodeM Bytes := do
  let e ← get
  rejectIf (e.listStartPositions ≠ []) .kUnclosedList
  return e.buffer

/-- `RlpEncoder::MoveBytes`: as `getBytes`, and the buffer is left empty. -/
def moveBytes : EncodeM Bytes := do
  let e ← get
  rejectIf (e.listStartPositions ≠ []) .kUnclosedList
  set { e with buffer := [] }
  return e.buffer

/-- `RlpEncoder::clear`. -/
def clear : EncodeM Unit := set RlpEncoder.new

/-! ## Headers -/

theorem encodeHeaderBytes_eq (list : Bool) {n : Nat} (h : n < kSizeModulus) :
    encodeHeaderBytes list n = .ok (headerBytes list n) := by
  unfold encodeHeaderBytes
  by_cases hs : n ≤ kMaxShortStringLen
  · have hlt : n < 56 := by unfold kMaxShortStringLen at hs; omega
    rw [if_pos hs, headerBytes_of_lt hlt]
    rfl
  · have hge : 56 ≤ n := by unfold kMaxShortStringLen at hs; omega
    have hlen : toBigCompact (T := .uint64) (BitVec.ofNat _ n) = beBytes n := by
      rw [toBigCompact_eq, UIntTy.toNat_ofNat h]
    have hle : ¬ (beBytes n).length > 8 := by
      rw [length_beBytes, not_lt]
      exact byteLength_le_eight h
    rw [if_neg hs, headerBytes_of_ge hge]
    simp only [hlen]
    rw [Outcome.rejectIf_bind_of_not hle, length_beBytes]
    rfl

/-! ## Calls -/

theorem appendBuffer_run (bytes buf : Bytes) (starts : List Nat) :
    appendBuffer bytes ⟨buf, starts⟩ = .ok () ⟨buf ++ bytes, starts⟩ := rfl

/-- `add(ByteView)` appends the string item. -/
theorem addBytes_run {s : Bytes} (h : s.length < kSizeModulus) (buf : Bytes) (starts : List Nat) :
    addBytes s ⟨buf, starts⟩ = .ok () ⟨buf ++ encodeString s, starts⟩ := by
  unfold addBytes
  by_cases hs : s.length = 1 ∧ (Bytes.at s 0).toNat < kRlpSingleByteThreshold
  · obtain ⟨x, rfl⟩ := List.length_eq_one_iff.mp hs.1
    rw [if_pos hs, appendBuffer_run, encodeString_of_single hs]
    rfl
  · rw [if_neg hs, bind_of_ok (lift_eq_ok.mpr ⟨encodeHeaderBytes_eq false h, rfl⟩),
      appendBuffer_run, encodeString_of_not_single hs]

theorem beginList_run (buf : Bytes) (starts : List Nat) :
    beginList ⟨buf, starts⟩ = .ok () ⟨buf, starts ++ [buf.length]⟩ := rfl

/-- `EndList` puts the header in front of the payload written since the matching `BeginList`. -/
theorem endList_run {payload : Bytes} (h : payload.length < kSizeModulus) (buf : Bytes)
    (starts : List Nat) :
    endList ⟨buf ++ payload, starts ++ [buf.length]⟩
      = .ok () ⟨buf ++ (headerBytes true payload.length ++ payload), starts⟩ := by
  unfold endList
  rw [get_bind]
  simp only [List.getLast?_concat, List.dropLast_concat, List.length_append, Nat.add_sub_cancel_left]
  rw [set_bind,
    bind_of_ok (lift_eq_ok.mpr ⟨encodeHeaderBytes_eq true h, rfl⟩)]
  simp only [modify_apply, List.take_left, List.drop_left, List.append_assoc]

theorem getBytes_run (buf : Bytes) : getBytes ⟨buf, []⟩ = .ok buf ⟨buf, []⟩ := by
  unfold getBytes
  rw [get_bind, rejectIf_bind_of_not (by simp), pure_apply]

end DevP2P.Rlp
