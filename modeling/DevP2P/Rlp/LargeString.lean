import DevP2P.Lib.Runs
import DevP2P.Rlp.Encoder

/-!
# Large strings in chunks (`RlpLargeStringEncoder` in `rlp/rlp_streaming.cpp`)

The stream reserves nine bytes behind what the encoder holds, appends the chunks of the payload, and at the end
writes the header into the reserved bytes and moves the payload up against it.

* `RlpLargeStringEncoder.create`, `addChunk`, `finish` : the calls; `streamString` : a whole stream;
* `encodeHeaderBytes_false` : the header function of the streams is the one of the encoder;
* `addChunk_run`, `runAll_addChunk`, `finish_run` : one chunk, all chunks, the patched header;
* `streamString_eq_add_iff` : the stream writes what `add` writes, unless the payload is a single byte that stands for
  itself.
-/

namespace DevP2P.Rlp
open DevP2P.Lib Stateful

inductive StreamingError
  | kAlreadyFinalized
  | kNotFinalized
  | kInvalidChunkSize
  | kHeaderSizeExceeded
deriving DecidableEq

/-- `std::memcpy(buffer + pos, data, data.size())`. -/
def overwrite (buffer : Bytes) (pos : Nat) (data : Bytes) : Bytes :=
  buffer.take pos ++ data ++ buffer.drop (pos + data.length)

/-- `encode_string_header`. -/
def encodeStringHeader (payloadLen : Nat) : Bytes :=
  if payloadLen ≤ kMaxShortStringLen then [UInt8.ofNat (kShortStringOffset + payloadLen)]
  else
    let lenBe := toBigCompact (T := .uint64) (BitVec.ofNat _ payloadLen)
    -- an empty header signals the error
    if lenBe.length > 8 then []
    else UInt8.ofNat (kLongStringOffset + lenBe.length) :: lenBe

structure RlpLargeStringEncoder where
  encoder : RlpEncoder
  headerStart : Nat
  payloadStart : Nat
  payloadSize : Nat
  finished : Bool
deriving DecidableEq

abbrev LargeStringM := EStateM StreamingError RlpLargeStringEncoder

namespace RlpLargeStringEncoder

/-- The reserved bytes: one prefix byte and a length of eight. -/
def kReservedSize : Nat := 9

/-- `encoder.GetBytes()`, as the streams report its error. -/
def mutableBuffer (encoder : RlpEncoder) : Except StreamingError Bytes :=
  (Stateful.outcome (getBytes encoder)).mapError fun _ => .kNotFinalized

/-- `RlpLargeStringEncoder::create`. -/
def create (encoder : RlpEncoder) : Except StreamingError RlpLargeStringEncoder := do
  let buffer ← mutableBuffer encoder
  let encoder := { encoder with buffer := buffer ++ List.replicate kReservedSize 0 }
  return ⟨encoder, encoder.buffer.length - kReservedSize, encoder.buffer.length, 0, false⟩

/-- `RlpLargeStringEncoder::addChunk`. -/
def addChunk (chunk : ByteView) : LargeStringM Unit := do
  let s ← get
  rejectIf s.finished .kAlreadyFinalized
  let buffer ← Stateful.lift (mutableBuffer s.encoder)
  set { s with
    encoder := { s.encoder with buffer := buffer ++ chunk }
    payloadSize := s.payloadSize + chunk.length }

/-- What `finish` makes of the buffer once the header is known. -/
def patchHeader (s : RlpLargeStringEncoder) (actualHeader buffer : Bytes) : Bytes :=
  let shift := kReservedSize - actualHeader.length
  let patched := overwrite buffer s.headerStart actualHeader
  if shift > 0 then
    -- close the gap between the header and the payload
    let payload := (patched.drop s.payloadStart).take s.payloadSize
    (overwrite patched (s.headerStart + actualHeader.length) payload).take (patched.length - shift)
  else patched

/-- `RlpLargeStringEncoder::finish`. -/
def finish : LargeStringM Unit := do
  let s ← get
  rejectIf s.finished .kAlreadyFinalized
  set { s with finished := true }
  let actualHeader := encodeStringHeader s.payloadSize
  rejectIf (actualHeader = [] ∧ s.payloadSize > kMaxShortStringLen) .kHeaderSizeExceeded
  let buffer ← Stateful.lift (mutableBuffer s.encoder)
  if actualHeader.length ≤ kReservedSize then
    modify fun t => { t with encoder := { t.encoder with buffer := s.patchHeader actualHeader buffer } }
  else throw .kHeaderSizeExceeded

end RlpLargeStringEncoder

open RlpLargeStringEncoder

/-- `create`, `addChunk` for each chunk, `finish`: the encoder afterwards. -/
def streamString (encoder : RlpEncoder) (chunks : List ByteView) : Except StreamingError RlpEncoder := do
  let s ← create encoder
  match (do runAll addChunk chunks; finish : LargeStringM Unit) s with
  | .ok _ s => .ok s.encoder
  | .error e _ => .error e

/-! ## The header -/

theorem length_toBigCompact_le (n : UIntTy.Val .uint64) : (toBigCompact n).length ≤ 8 := by
  rw [toBigCompact_eq, length_beBytes]
  exact byteLength_le_eight n.isLt

/-- The streams compute the header `add` computes, at every length. -/
theorem encodeHeaderBytes_false (n : Nat) : encodeHeaderBytes false n = .ok (encodeStringHeader n) := by
  unfold encodeHeaderBytes encodeStringHeader
  by_cases hs : n ≤ kMaxShortStringLen
  · simp only [if_pos hs]
    rfl
  · have hle := length_toBigCompact_le (BitVec.ofNat _ n)
    simp only [if_neg hs, if_neg (not_lt.mpr hle)]
    rw [Outcome.rejectIf_bind_of_not (not_lt.mpr hle)]
    rfl

theorem encodeStringHeader_ne_nil (n : Nat) : encodeStringHeader n ≠ [] := by
  unfold encodeStringHeader
  split
  · simp
  · simp only [if_neg (not_lt.mpr (length_toBigCompact_le _))]
    exact List.cons_ne_nil _ _

theorem length_encodeStringHeader_le (n : Nat) : (encodeStringHeader n).length ≤ kReservedSize := by
  unfold encodeStringHeader kReservedSize
  split
  · simp
  · have hle := length_toBigCompact_le (BitVec.ofNat _ n)
    simp only [if_neg (not_lt.mpr hle), List.length_cons]
    omega

/-- `add(ByteView)` of a payload that does not stand for itself. -/
theorem addBytes_of_not_single {d : Bytes} (h : ¬ (d.length = 1 ∧ (Bytes.at d 0).toNat < kRlpSingleByteThreshold))
    (p : Bytes) (starts : List Nat) :
    addBytes d ⟨p, starts⟩ = .ok () ⟨p ++ (encodeStringHeader d.length ++ d), starts⟩ := by
  unfold addBytes
  rw [if_neg h, bind_of_ok (lift_eq_ok.mpr ⟨encodeHeaderBytes_false d.length, rfl⟩), appendBuffer_run]

/-- `add(ByteView)` of a byte that stands for itself. -/
theorem addBytes_of_single {d : Bytes} (h : d.length = 1 ∧ (Bytes.at d 0).toNat < kRlpSingleByteThreshold)
    (p : Bytes) (starts : List Nat) : addBytes d ⟨p, starts⟩ = .ok () ⟨p ++ d, starts⟩ := by
  obtain ⟨x, rfl⟩ := List.length_eq_one_iff.mp h.1
  unfold addBytes
  rw [if_pos h, appendBuffer_run]
  rfl

/-! ## The calls -/

/-- The stream on an encoder that held `p`, after the chunks that make up `d`. -/
def openStream (p d : Bytes) : RlpLargeStringEncoder :=
  ⟨⟨p ++ List.replicate kReservedSize 0 ++ d, []⟩, p.length, p.length + kReservedSize, d.length, false⟩

theorem mutableBuffer_run (b : Bytes) : mutableBuffer ⟨b, []⟩ = .ok b := by
  unfold mutableBuffer
  rw [getBytes_run]
  rfl

theorem mutableBuffer_openStream (p d : Bytes) :
    mutableBuffer (openStream p d).encoder = .ok (p ++ List.replicate kReservedSize 0 ++ d) := mutableBuffer_run _

theorem create_run (p : Bytes) : create ⟨p, []⟩ = .ok (openStream p []) := by
  unfold create openStream
  rw [mutableBuffer_run, Outcome.ok_bind]
  simp only [List.append_nil, List.length_append, List.length_replicate, Nat.add_sub_cancel, List.length_nil]
  rfl

theorem addChunk_run (p d c : Bytes) : addChunk c (openStream p d) = .ok () (openStream p (d ++ c)) := by
  unfold addChunk openStream
  rw [get_bind, rejectIf_bind_of_not (by simp),
    bind_of_ok (lift_eq_ok.mpr ⟨mutableBuffer_run _, rfl⟩), ← List.append_assoc, List.length_append]
  rfl

theorem runAll_addChunk (p d : Bytes) (chunks : List Bytes) :
    runAll addChunk chunks (openStream p d) = .ok () (openStream p (d ++ chunks.flatten)) :=
  runAll_flatten (P := fun _ => True) (fun _ _ _ => trivial) (fun d c _ => addChunk_run p d c) chunks trivial

theorem overwrite_append {a b : Bytes} (c data : Bytes) (h : b.length = data.length) :
    overwrite (a ++ (b ++ c)) a.length data = a ++ (data ++ c) := by
  unfold overwrite
  rw [List.take_left, ← h, ← List.drop_drop, List.drop_left, List.drop_left, List.append_assoc]

theorem patchHeader_openStream (p d : Bytes) {header : Bytes} (h : header.length ≤ kReservedSize) :
    (openStream p d).patchHeader header (p ++ List.replicate kReservedSize 0 ++ d) = p ++ (header ++ d) := by
  -- the reserved bytes are those under the header and those of the gap
  have hreserved : List.replicate kReservedSize (0 : UInt8) =
      List.replicate header.length 0 ++ List.replicate (kReservedSize - header.length) 0 := by
    rw [List.replicate_append_replicate, Nat.add_sub_cancel' h]
  have hpatched : overwrite (p ++ List.replicate kReservedSize 0 ++ d) p.length header =
      p ++ header ++ (List.replicate (kReservedSize - header.length) 0 ++ d) := by
    rw [hreserved, List.append_assoc, List.append_assoc,
      overwrite_append _ _ (List.length_replicate), List.append_assoc]
  unfold patchHeader openStream
  simp only [hpatched]
  split_ifs with hgap
  · have hpayload : ((p ++ header ++ (List.replicate (kReservedSize - header.length) 0 ++ d)).drop
        (p.length + kReservedSize)).take d.length = d := by
      rw [← List.append_assoc, List.drop_left' (by simp; omega), List.take_of_length_le (le_refl _)]
    rw [hpayload]
    unfold overwrite
    rw [← List.length_append, List.take_left, ← List.append_assoc p]
    refine List.take_left' ?_
    simp only [List.length_append, List.length_replicate]
    omega
  · have hzero : kReservedSize - header.length = 0 := by omega
    rw [hzero, List.replicate_zero, List.nil_append, List.append_assoc]

theorem finish_run (p d : Bytes) : ∃ s, finish (openStream p d) = .ok () s ∧
    s.encoder = ⟨p ++ (encodeStringHeader d.length ++ d), []⟩ := by
  refine ⟨{ openStream p d with
    encoder := ⟨p ++ (encodeStringHeader d.length ++ d), []⟩, finished := true }, ?_, rfl⟩
  unfold finish
  rw [get_bind, rejectIf_bind_of_not (by simp [openStream]), set_bind,
    rejectIf_bind_of_not (fun h => encodeStringHeader_ne_nil _ h.1),
    bind_of_ok (lift_eq_ok.mpr ⟨mutableBuffer_openStream p d, rfl⟩),
    if_pos (length_encodeStringHeader_le _), modify_apply]
  rw [show (openStream p d).payloadSize = d.length from rfl,
    patchHeader_openStream p d (length_encodeStringHeader_le d.length)]
  rfl

theorem streamString_run (p : Bytes) (chunks : List Bytes) :
    streamString ⟨p, []⟩ chunks =
      .ok ⟨p ++ (encodeStringHeader chunks.flatten.length ++ chunks.flatten), []⟩ := by
  obtain ⟨s, hfinish, hs⟩ := finish_run p chunks.flatten
  unfold streamString
  rw [create_run, Outcome.ok_bind, bind_of_ok (runAll_addChunk p [] chunks), List.nil_append, hfinish]
  simp only [hs]

/-- **A stream leaves what `add` of the whole payload leaves exactly when the payload is not a single byte below
`0x80`**, which `add` writes without a header. -/
theorem streamString_eq_add_iff (p : Bytes) (chunks : List ByteView) :
    (∃ e e', streamString ⟨p, []⟩ chunks = .ok e ∧ addBytes chunks.flatten ⟨p, []⟩ = .ok () e' ∧
        e.buffer = e'.buffer) ↔
      ¬ (chunks.flatten.length = 1 ∧ (Bytes.at chunks.flatten 0).toNat < kRlpSingleByteThreshold) := by
  constructor
  · intro hex hsingle
    obtain ⟨e, e', hstream, hadd, hbuf⟩ := hex
    rw [streamString_run] at hstream
    rw [addBytes_of_single hsingle] at hadd
    cases hstream
    cases hadd
    -- the buffers differ by the length of the header
    have hlen := congrArg List.length hbuf
    have hpos := List.length_pos_iff.mpr (encodeStringHeader_ne_nil chunks.flatten.length)
    simp only [List.length_append] at hlen
    omega
  · intro hmany
    exact ⟨_, _, streamString_run p chunks, addBytes_of_not_single hmany p [], rfl⟩

/-- The single byte `5` in one chunk. -/
theorem streamString_single_byte :
    streamString ⟨[], []⟩ [[5]] = .ok ⟨[0x81, 5], []⟩ ∧ addBytes [5] ⟨[], []⟩ = .ok () ⟨[5], []⟩ := by
  decide

end DevP2P.Rlp
