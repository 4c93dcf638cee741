import DevP2P.Lib.Pieces
import DevP2P.Rlp.ChunkedDecoder
import DevP2P.Rlp.LargeString

/-!
# Chunked lists, the writing side (`RlpChunkedListEncoder` in `rlp/rlp_streaming.cpp`)

The stream collects data in a buffer of `chunkSize` bytes and adds the buffer as a string to an open list whenever it is
full; `finish` adds what is left and closes the list.

* `RlpChunkedListEncoder.create`, `addChunk`, `flushBuffer`, `finish` : the calls;
* `fed e n d` : the stream after the data `d`, however they were split; `copyRounds_run`, `addChunk_fed`,
  `runAll_addChunk_fed` : one round, one call and all calls lead from one such stream to another;
* `chunkedList_of_pieces` : the list of the pieces of the data is appended, and reassembles to them.
-/

namespace DevP2P.Rlp
open DevP2P.Lib Stateful

structure RlpChunkedListEncoder where
  encoder : RlpEncoder
  chunkSize : Nat
  buffer : Bytes
  chunkCount : Nat
  totalBytes : Nat
  finished : Bool
  listStarted : Bool
deriving DecidableEq

abbrev ChunkedEncodeM := EStateM StreamingError RlpChunkedListEncoder

namespace RlpChunkedListEncoder

/-- `RlpChunkedListEncoder::create`. -/
def create (encoder : RlpEncoder) (chunkSize : Nat) : Except StreamingError RlpChunkedListEncoder := do
  rejectIf (chunkSize = 0) .kInvalidChunkSize
  return ⟨encoder, chunkSize, [], 0, 0, false, false⟩

/-- A call on the encoder, as the stream reports its error. -/
def onEncoder (x : EncodeM Unit) : ChunkedEncodeM Unit :=
  Stateful.zoom encoder (fun e s => { s with encoder := e }) (withError .kNotFinalized x)

/-- `RlpChunkedListEncoder::flushBuffer`; an error of `add` is ignored. -/
def flushBuffer : ChunkedEncodeM Unit := do
  let s ← get
  if s.buffer = [] then return ()
  else
    set { s with
      encoder := finalState (addBytes s.buffer s.encoder)
      chunkCount := s.chunkCount + 1
      buffer := [] }

/-- The loop of `addChunk` over the data from `offset` on, with room for `fuel` rounds. -/
def copyRounds : Nat → ByteView → ChunkedEncodeM Unit
  | 0, _ => return ()
  | fuel + 1, data => do
    if data = [] then return ()
    else
      let s ← get
      let spaceLeft := s.chunkSize - s.buffer.length
      let toCopy := min spaceLeft data.length
      let buffer := s.buffer ++ data.take toCopy
      set { s with buffer := buffer, totalBytes := s.totalBytes + toCopy }
      if buffer.length ≥ s.chunkSize then flushBuffer
      copyRounds fuel (data.drop toCopy)

/-- `RlpChunkedListEncoder::addChunk`. A buffer that is not full takes a byte at least in every round. -/
def addChunk (data : ByteView) : ChunkedEncodeM Unit := do
  let s ← get
  rejectIf s.finished .kAlreadyFinalized
  if s.listStarted then copyRounds data.length data
  else do
    onEncoder beginList
    modify fun s => { s with listStarted := true }
    copyRounds data.length data

/-- `RlpChunkedListEncoder::finish`. -/
def finish : ChunkedEncodeM Unit := do
  let s ← get
  rejectIf s.finished .kAlreadyFinalized
  set { s with finished := true }
  if s.buffer ≠ [] then flushBuffer
  if s.listStarted then onEncoder endList
  else do
    -- no data at all: the empty list
    onEncoder beginList
    onEncoder endList

end RlpChunkedListEncoder

open RlpChunkedListEncoder

/-! ## The stream after some data -/

/-- The stream with chunk size `n` on the encoder `e`, after the data `d` and with its list open. -/
def fed (e : RlpEncoder) (n : Nat) (d : Bytes) : RlpChunkedListEncoder where
  encoder := ⟨e.buffer ++ (fullPieces n d).flatMap encodeString, e.listStartPositions ++ [e.buffer.length]⟩
  chunkSize := n
  buffer := rest n d
  chunkCount := (fullPieces n d).length
  totalBytes := d.length
  finished := false
  listStarted := true

theorem flushBuffer_run {b : Bytes} (hb : b ≠ []) (hlt : b.length < kSizeModulus) (s : RlpChunkedListEncoder)
    (hs : s.buffer = b) :
    flushBuffer s = .ok () { s with
      encoder := ⟨s.encoder.buffer ++ encodeString b, s.encoder.listStartPositions⟩
      chunkCount := s.chunkCount + 1
      buffer := [] } := by
  unfold flushBuffer
  rw [get_bind, if_neg (by rwa [hs]), hs, addBytes_run hlt]
  rfl

section Feeding

variable (e : RlpEncoder) {n : Nat} (hn : 0 < n)
include hn

theorem copyRounds_step {d data : Bytes} (hdata : data ≠ []) (hlt : (d ++ data).length < kSizeModulus) (fuel : Nat) :
    ∃ k, 0 < k ∧ k ≤ data.length ∧
      copyRounds (fuel + 1) data (fed e n d) = copyRounds fuel (data.drop k) (fed e n (d ++ data.take k)) := by
  have hmod := Nat.mod_lt d.length hn
  have hpos := List.length_pos_iff.mpr hdata
  rw [List.length_append] at hlt
  have hrest := length_rest n d
  have hmodle := Nat.mod_le d.length n
  refine ⟨min (n - (rest n d).length) data.length, by omega, by omega, ?_⟩
  set k := min (n - (rest n d).length) data.length with hk
  have htake : (data.take k).length = k := by
    rw [List.length_take]
    omega
  have htotal : d.length + k = (d ++ data.take k).length := by rw [List.length_append, htake]
  simp only [copyRounds]
  rw [if_neg hdata, get_bind]
  simp only [fed, ← hk]
  rw [set_bind]
  by_cases hfull : (rest n d ++ data.take k).length ≥ n
  · have heq : d.length % n + (data.take k).length = n := by
      rw [List.length_append] at hfull
      omega
    have hne : rest n d ++ data.take k ≠ [] := List.length_pos_iff.mp (by omega)
    rw [if_pos hfull, bind_of_ok (flushBuffer_run hne (by rw [List.length_append]; omega) _ rfl)]
    simp only [fullPieces_append_of_eq hn heq, rest_append_of_eq hn heq, List.flatMap_append, List.flatMap_singleton,
      List.length_append, List.length_singleton, List.append_assoc, htotal]
  · have heq : d.length % n + (data.take k).length < n := by
      rw [List.length_append] at hfull
      omega
    rw [if_neg hfull]
    simp only [fullPieces_append_of_lt heq, rest_append_of_lt heq, htotal]

theorem copyRounds_run (fuel : Nat) {d data : Bytes} (hlt : (d ++ data).length < kSizeModulus)
    (hfuel : data.length ≤ fuel) : copyRounds fuel data (fed e n d) = .ok () (fed e n (d ++ data)) := by
  -- every round shortens the data, so the rounds do not run out
  induction fuel generalizing d data with
  | zero =>
      obtain rfl := List.eq_nil_of_length_eq_zero (Nat.le_zero.mp hfuel)
      rw [List.append_nil]
      rfl
  | succ fuel ih =>
      by_cases hdata : data = []
      · subst hdata
        rw [List.append_nil]
        rfl
      · obtain ⟨k, hpos, hle, hstep⟩ := copyRounds_step e hn hdata hlt fuel
        have hsplit : d ++ data.take k ++ data.drop k = d ++ data := by
          rw [List.append_assoc, List.take_append_drop]
        rw [hstep, ih (by rwa [hsplit]) (by rw [List.length_drop]; omega), hsplit]

theorem addChunk_fed {d data : Bytes} (hlt : (d ++ data).length < kSizeModulus) :
    addChunk data (fed e n d) = .ok () (fed e n (d ++ data)) := by
  unfold addChunk
  rw [get_bind, rejectIf_bind_of_not (by simp [fed]), if_pos (by rfl),
    copyRounds_run e hn _ hlt (le_refl _)]

theorem addChunk_create {data : Bytes} (hlt : data.length < kSizeModulus) :
    addChunk data ⟨e, n, [], 0, 0, false, false⟩ = .ok () (fed e n data) := by
  have hopen : onEncoder beginList ⟨e, n, [], 0, 0, false, false⟩ =
      .ok () ⟨⟨e.buffer, e.listStartPositions ++ [e.buffer.length]⟩, n, [], 0, 0, false, false⟩ := rfl
  have hfed : (⟨⟨e.buffer, e.listStartPositions ++ [e.buffer.length]⟩, n, [], 0, 0, false, true⟩ :
      RlpChunkedListEncoder) = fed e n [] := by
    simp only [fed, fullPieces_nil, rest_nil, List.flatMap_nil, List.append_nil, List.length_nil]
  unfold addChunk
  rw [get_bind, rejectIf_bind_of_not (by simp), if_neg (by simp), bind_of_ok hopen,
    bind_of_ok (modify_apply _ _)]
  simp only
  rw [hfed, copyRounds_run e hn _ (by rwa [List.nil_append]) (le_refl _), List.nil_append]

theorem runAll_addChunk_fed (cs : List Bytes) {d : Bytes} (hlt : (d ++ cs.flatten).length < kSizeModulus) :
    runAll addChunk cs (fed e n d) = .ok () (fed e n (d ++ cs.flatten)) := by
  refine runAll_flatten (P := fun d => d.length < kSizeModulus) ?_ (fun d c hdc => addChunk_fed e hn hdc) cs hlt
  intro c d hcd
  rw [List.length_append] at hcd
  omega

end Feeding

/-! ## The end of the stream -/

/-- The list of the pieces of `d`, behind what the encoder held. -/
def withPieces (e : RlpEncoder) (n : Nat) (d : Bytes) : RlpEncoder :=
  ⟨e.buffer ++ (chunkedItem (pieces n d)).encode, e.listStartPositions⟩

theorem onEncoder_endList {s : RlpChunkedListEncoder} {b p : Bytes} {starts : List Nat}
    (hs : s.encoder = ⟨b ++ p, starts ++ [b.length]⟩) (hp : p.length < kSizeModulus) :
    onEncoder endList s = .ok () { s with encoder := ⟨b ++ encodeList p, starts⟩ } := by
  unfold onEncoder
  rw [zoom_of_ok (withError_eq_ok.mpr (hs ▸ endList_run hp b starts))]
  rfl

theorem finish_fed (e : RlpEncoder) {n : Nat} (hn : 0 < n) (d : Bytes)
    (hlt : ((pieces n d).flatMap encodeString).length < kSizeModulus) :
    ∃ s, finish (fed e n d) = .ok () s ∧ s.encoder = withPieces e n d ∧ s.chunkCount = (pieces n d).length ∧
      s.totalBytes = d.length := by
  unfold finish withPieces
  rw [get_bind, rejectIf_bind_of_not (by simp [fed]), set_bind, encode_chunkedItem]
  have hpieces := pieces_eq hn d
  by_cases hrest : rest n d = []
  · rw [if_pos hrest, List.append_nil] at hpieces
    rw [hpieces] at hlt
    rw [if_neg (by simp [fed, hrest]), if_pos (by rfl), hpieces]
    exact ⟨_, onEncoder_endList rfl hlt, rfl, rfl, rfl⟩
  · rw [if_neg hrest] at hpieces
    have hmem : rest n d ∈ pieces n d := by
      rw [hpieces]
      exact List.mem_append_right _ List.mem_cons_self
    have hflush := flushBuffer_run hrest (length_lt_of_mem hlt _ hmem) { fed e n d with finished := true } rfl
    rw [if_pos (by simpa [fed] using hrest), bind_of_ok hflush, if_pos (by rfl)]
    rw [hpieces, List.flatMap_append, List.flatMap_singleton] at hlt ⊢
    refine ⟨_, onEncoder_endList ?_ hlt, rfl, ?_, rfl⟩
    · simp only [fed, List.append_assoc]
    · rw [List.length_append]
      rfl

theorem finish_create (e : RlpEncoder) (n : Nat) :
    finish ⟨e, n, [], 0, 0, false, false⟩ =
      .ok () ⟨⟨e.buffer ++ encodeList [], e.listStartPositions⟩, n, [], 0, 0, true, false⟩ := by
  unfold finish
  rw [get_bind, rejectIf_bind_of_not (by simp), set_bind, if_neg (by simp), if_neg (by simp)]
  have hbegin : onEncoder beginList ⟨e, n, [], 0, 0, true, false⟩ =
      .ok () ⟨⟨e.buffer ++ [], e.listStartPositions ++ [e.buffer.length]⟩, n, [], 0, 0, true, false⟩ := by
    rw [List.append_nil]
    rfl
  show (onEncoder beginList >>= fun _ => onEncoder endList) _ = _
  rw [bind_of_ok hbegin, onEncoder_endList rfl (by decide)]

theorem create_of_pos (e : RlpEncoder) {n : Nat} (hn : 0 < n) : create e n = .ok ⟨e, n, [], 0, 0, false, false⟩ := by
  unfold create
  rw [Outcome.rejectIf_bind_of_not (by omega)]
  rfl

/-- No piece is empty, so that the decoder does not stop in front of one. -/
theorem decodeChunkedListFull_pieces {n : Nat} (hn : 0 < n) {d : Bytes}
    (hlt : ((pieces n d).flatMap encodeString).length < kSizeModulus) :
    decodeChunkedListFull ⟨(chunkedItem (pieces n d)).encode⟩ = .ok d := by
  have hnone : [] ∉ pieces n d := fun hmem => ne_nil_of_mem_pieces hn hmem rfl
  have hfull := decodeChunkedListFull_run hlt []
  rw [List.append_nil, beforeEmpty_eq_self_iff.mpr hnone, flatten_pieces hn] at hfull
  rw [encode_chunkedItem, hfull]

/-- **However the data are split, a stream appends the list of their pieces**, counts the pieces and the bytes, and
the list reassembles to the data. -/
theorem chunkedList_of_pieces (e : RlpEncoder) (n : Nat) (hn : 0 < n) (cs : List ByteView)
    (hlen : (chunkedItem (pieces n cs.flatten)).encode.length < 2 ^ 64) :
    ∃ s t, create e n = .ok s ∧ (do runAll addChunk cs; finish : ChunkedEncodeM Unit) s = .ok () t ∧
      t.encoder = ⟨e.buffer ++ (chunkedItem (pieces n cs.flatten)).encode, e.listStartPositions⟩ ∧
      t.chunkCount = cs.flatten.length ⌈/⌉ n ∧ t.totalBytes = cs.flatten.length ∧
      decodeChunkedListFull ⟨(chunkedItem (pieces n cs.flatten)).encode⟩ = .ok cs.flatten := by
  have hlt : ((pieces n cs.flatten).flatMap encodeString).length < kSizeModulus := by
    rw [encode_chunkedItem] at hlen
    exact lt_of_le_of_lt (length_le_encodeList _) hlen
  have hdata : cs.flatten.length < kSizeModulus := by
    have := length_flatten_le (pieces n cs.flatten)
    rw [flatten_pieces hn] at this
    omega
  have hdecode := decodeChunkedListFull_pieces hn hlt
  have hcreate := create_of_pos e hn
  cases cs with
  | nil =>
      refine ⟨_, _, hcreate, (bind_of_ok rfl _).trans (finish_create e n), ?_, ?_, rfl, hdecode⟩
      · rw [encode_chunkedItem]
        simp [pieces]
      · simp
  | cons c cs =>
      obtain ⟨t, hfinish, henc, hcount, htotal⟩ := finish_fed e hn (c :: cs).flatten hlt
      have hfirst : c.length < kSizeModulus := by
        rw [List.flatten_cons, List.length_append] at hdata
        omega
      refine ⟨_, t, hcreate, ?_, henc, by rw [hcount, length_pieces], htotal, hdecode⟩
      show ((addChunk c >>= fun _ => runAll addChunk cs) >>= fun _ => finish) _ = _
      rw [bind_assoc, bind_of_ok (addChunk_create e hn hfirst),
        bind_of_ok (runAll_addChunk_fed e hn cs (by rwa [List.flatten_cons] at hdata)), ← List.flatten_cons,
        hfinish]

/-- Five bytes in pieces of two, given as `[1, 2, 3]`, `[]` and `[4, 5]`. -/
theorem chunkedList_of_five_bytes :
    ∃ s t, create RlpEncoder.new 2 = .ok s ∧
      (do runAll addChunk [[1, 2, 3], [], [4, 5]]; finish : ChunkedEncodeM Unit) s = .ok () t ∧
      t.encoder = ⟨[] ++ (chunkedItem (pieces 2 [1, 2, 3, 4, 5])).encode, []⟩ ∧
      t.chunkCount = 5 ⌈/⌉ 2 ∧ t.totalBytes = 5 ∧
      decodeChunkedListFull ⟨(chunkedItem (pieces 2 [1, 2, 3, 4, 5])).encode⟩ = .ok [1, 2, 3, 4, 5] :=
  chunkedList_of_pieces RlpEncoder.new 2 (by decide) [[1, 2, 3], [], [4, 5]] (by rw [encode_chunkedItem]; decide)

end DevP2P.Rlp
