import DevP2P.Rlp.Reads

/-!
# Large strings, the reading side (`RlpLargeStringDecoder` in `rlp/rlp_streaming.cpp`)

* `RlpLargeStringDecoder`, `readChunk` : the decoder, which skips the header on the first read;
* `readingString s r k` : the decoder with `k` bytes of the string `s` read, in front of `r`;
* `after_reads` : the state after any reads is the one with the sum of their limits read, up to the length of the
  string.
-/

namespace DevP2P.Rlp
open DevP2P.Lib Stateful

structure RlpLargeStringDecoder where
  view : ByteView
  payloadSize : Nat
  bytesRead : Nat
  initialized : Bool
deriving DecidableEq

namespace RlpLargeStringDecoder

abbrev LargeDecodeM := EStateM DecodingError RlpLargeStringDecoder

/-- `RlpLargeStringDecoder(data)`. -/
def new (data : ByteView) : RlpLargeStringDecoder := ⟨data, 0, 0, false⟩

/-- What `readChunk` does on the first read. -/
def startString : LargeDecodeM Unit := do
  let s ← get
  let h ← Stateful.lift (RlpDecoder.mk s.view).peekHeader
  rejectIf h.list .kUnexpectedList
  rejectIf (s.view.length < h.headerSizeBytes + h.payloadSizeBytes) .kInputTooShort
  set { s with payloadSize := h.payloadSizeBytes, view := s.view.drop h.headerSizeBytes, initialized := true }

/-- What `readChunk` does once the header is skipped. -/
def nextPiece (maxChunkSize : Nat) : LargeDecodeM ByteView := do
  let s ← get
  -- the empty view signals completion
  if s.bytesRead ≥ s.payloadSize then return []
  else
    let chunkSize := min (s.payloadSize - s.bytesRead) maxChunkSize
    set { s with view := s.view.drop chunkSize, bytesRead := s.bytesRead + chunkSize }
    return s.view.take chunkSize

/-- `RlpLargeStringDecoder::readChunk`. -/
def readChunk (maxChunkSize : Nat) : LargeDecodeM ByteView := do
  let s ← get
  if s.initialized then nextPiece maxChunkSize
  else do
    startString
    nextPiece maxChunkSize

/-- `RlpLargeStringDecoder::peekPayloadSize`. -/
def peekPayloadSize (s : RlpLargeStringDecoder) : Except DecodingError Nat := do
  let h ← (RlpDecoder.mk s.view).peekHeader
  rejectIf h.list .kUnexpectedList
  rejectIf (s.view.length < h.headerSizeBytes + h.payloadSizeBytes) .kInputTooShort
  return h.payloadSizeBytes

def currentPosition (s : RlpLargeStringDecoder) : Nat := s.bytesRead

def totalSize (s : RlpLargeStringDecoder) : Nat := s.payloadSize

def isFinished (s : RlpLargeStringDecoder) : Bool := s.initialized && decide (s.bytesRead ≥ s.payloadSize)

def isInitialized (s : RlpLargeStringDecoder) : Bool := s.initialized

def remaining (s : RlpLargeStringDecoder) : ByteView := s.view

/-- The decoder after reads with the limits `sizes`, whatever they return. -/
def after (data : ByteView) (sizes : List Nat) : RlpLargeStringDecoder :=
  sizes.foldl (fun s size => finalState (readChunk size s)) (new data)

/-! ## Reads of a string -/

/-- The decoder with `k` bytes of `s` read, in front of `r`. -/
def readingString (s r : Bytes) (k : Nat) : RlpLargeStringDecoder := ⟨s.drop k ++ r, s.length, k, true⟩

theorem nextPiece_readingString (s r : Bytes) {k : Nat} (hk : k ≤ s.length) (size : Nat) :
    nextPiece size (readingString s r k) = .ok ((s.drop k).take size)
      (readingString s r (min s.length (k + size))) := by
  unfold nextPiece readingString
  rw [get_bind]
  dsimp only
  split_ifs with hdone
  · have hall : s.drop k = [] := List.drop_eq_nil_iff.mpr hdone
    rw [min_eq_left (by omega), hall, List.take_nil, List.drop_length, pure_apply, le_antisymm hk hdone]
  · have hle : min (s.length - k) size ≤ (s.drop k).length := by
      rw [List.length_drop]
      exact min_le_left _ _
    have hsum : k + min (s.length - k) size = min s.length (k + size) := by omega
    rw [set_bind, pure_apply, List.take_append_of_le_length hle, List.drop_append_of_le_length hle,
      List.drop_drop, hsum, ← List.length_drop, min_comm, ← List.take_eq_take_min]

theorem startString_new {s : Bytes} (hs : s.length < kSizeModulus) (r : Bytes) :
    startString (new (encodeString s ++ r)) = .ok () (readingString s r 0) := by
  obtain ⟨h, hc, hlist, hsize⟩ := canonicalHeader_encodeString hs r
  have hlen := hc.length_eq
  have hle := hc.payload_le
  unfold startString new
  rw [get_bind, bind_of_ok (lift_eq_ok.mpr ⟨peekHeader_eq_ok_iff.mpr ⟨_, hc⟩, rfl⟩),
    rejectIf_bind_of_not (by simp [hlist]), rejectIf_bind_of_not (by dsimp only; omega)]
  simp only [hsize, hc.drop_eq]
  rfl

theorem readChunk_new {s : Bytes} (hs : s.length < kSizeModulus) (r : Bytes) (size : Nat) :
    readChunk size (new (encodeString s ++ r)) = readChunk size (readingString s r 0) := by
  show (startString >>= fun _ => nextPiece size) (new _) = nextPiece size _
  rw [bind_of_ok (startString_new hs r)]

theorem readChunk_readingString (s r : Bytes) {k : Nat} (hk : k ≤ s.length) (size : Nat) :
    readChunk size (readingString s r k) = .ok ((s.drop k).take size) (readingString s r (min s.length (k + size))) :=
  nextPiece_readingString s r hk size

theorem foldl_readingString (s r : Bytes) {k : Nat} (hk : k ≤ s.length) (sizes : List Nat) :
    sizes.foldl (fun s size => finalState (readChunk size s)) (readingString s r k) =
      readingString s r (min s.length (k + sizes.sum)) := by
  induction sizes generalizing k with
  | nil => rw [List.foldl_nil, List.sum_nil, Nat.add_zero, min_eq_right hk]
  | cons size sizes ih =>
      have hmin : min s.length (min s.length (k + size) + sizes.sum) = min s.length (k + (size + sizes.sum)) := by omega
      rw [List.foldl_cons, readChunk_readingString s r hk, List.sum_cons, ← hmin]
      exact ih (min_le_left _ _)

theorem after_reads {s : Bytes} (hs : s.length < kSizeModulus) (r : Bytes) {sizes : List Nat} (hsizes : sizes ≠ []) :
    after (encodeString s ++ r) sizes = readingString s r (min s.length sizes.sum) := by
  obtain ⟨size, sizes, rfl⟩ := List.exists_cons_of_ne_nil hsizes
  have hrun := foldl_readingString s r (Nat.zero_le _) (size :: sizes)
  rw [Nat.zero_add] at hrun
  rw [← hrun]
  unfold after
  rw [List.foldl_cons, List.foldl_cons, readChunk_new hs]

theorem remaining_of_isFinished {s : Bytes} (hs : s.length < kSizeModulus) (r : Bytes) (sizes : List Nat)
    (h : (after (encodeString s ++ r) sizes).isFinished = true) :
    (after (encodeString s ++ r) sizes).remaining = r := by
  by_cases hsizes : sizes = []
  · rw [hsizes] at h
    cases h
  · rw [after_reads hs r hsizes] at h ⊢
    have hall : s.length ≤ min s.length sizes.sum := by simpa [isFinished, readingString] using h
    show s.drop (min s.length sizes.sum) ++ r = r
    rw [List.drop_eq_nil_iff.mpr hall, List.nil_append]

end RlpLargeStringDecoder

end DevP2P.Rlp
