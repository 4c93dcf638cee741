import DevP2P.Rlp.Reads
import Mathlib.Data.List.TakeWhile

/-!
# Chunked lists, the reading side (`RlpChunkedListDecoder` in `rlp/rlp_streaming.cpp`)

A chunked list is an RLP list of strings. `readChunk` yields one string at a time, and an empty view when there is none
left; `decodeChunkedList` calls back for every chunk up to the first empty view.

* `scanChunks`, `peekTotalSize`, `peekChunkCount`, `readChunk` : the decoder;
* `decodeChunkedList`, `decodeChunkedListFull` : the callback loop, and the reassembly;
* `readChunk_start`, `readChunk_cons`, `readChunk_nil` : one call on the encoding of a list of strings;
* `decodeChunkedList_run` : the chunks that are handed over are those in front of the first empty one;
* `reassembly_complete_iff` : nothing is lost exactly when no chunk is empty.
-/

namespace DevP2P.Rlp
open DevP2P.Lib Stateful

structure RlpChunkedListDecoder where
  view : ByteView
  listPayload : ByteView
  totalSize : Nat
  totalChunks : Nat
  chunkIndex : Nat
  initialized : Bool
deriving DecidableEq

abbrev ChunkedDecodeM := EStateM DecodingError RlpChunkedListDecoder

/-- The loops that scan the list: the sizes and the number of the chunks in `v`, with room for `fuel` rounds. -/
def scanChunks : Nat → ByteView → Nat → Nat → Except DecodingError (Nat × Nat)
  | 0, _, total, chunks => return (total, chunks)
  | fuel + 1, v, total, chunks => do
    if v = [] then return (total, chunks)
    let h ← (RlpDecoder.mk v).peekHeader
    rejectIf h.list .kUnexpectedList
    let chunkTotalSize := h.headerSizeBytes + h.payloadSizeBytes
    rejectIf (v.length < chunkTotalSize) .kInputTooShort
    scanChunks fuel (v.drop chunkTotalSize) (total + h.payloadSizeBytes) (chunks + 1)

namespace RlpChunkedListDecoder

/-- `RlpChunkedListDecoder(data)`. -/
def new (data : ByteView) : RlpChunkedListDecoder := ⟨data, [], 0, 0, 0, false⟩

/-- `RlpChunkedListDecoder::peekTotalSize`. -/
def peekTotalSize : ChunkedDecodeM Nat := do
  let s ← get
  if s.initialized ∧ s.totalSize > 0 then return s.totalSize
  else
    let h ← Stateful.lift (RlpDecoder.mk s.view).peekHeader
    rejectIf (¬ h.list) .kUnexpectedString
    rejectIf (s.view.length < h.headerSizeBytes + h.payloadSizeBytes) .kInputTooShort
    let listView := (s.view.drop h.headerSizeBytes).take h.payloadSizeBytes
    let (total, chunks) ← Stateful.lift (scanChunks listView.length listView 0 0)
    set { s with totalSize := total, totalChunks := chunks }
    return total

/-- `RlpChunkedListDecoder::peekChunkCount`. -/
def peekChunkCount : ChunkedDecodeM Nat := do
  let s ← get
  if s.initialized ∧ s.totalChunks > 0 then return s.totalChunks
  else
    let _ ← peekTotalSize
    let s ← get
    return s.totalChunks

/-- What `readChunk` does on the first read. -/
def startList : ChunkedDecodeM Unit := do
  let s ← get
  let h ← Stateful.lift (RlpDecoder.mk s.view).peekHeader
  rejectIf (¬ h.list) .kUnexpectedString
  rejectIf (s.view.length < h.headerSizeBytes + h.payloadSizeBytes) .kInputTooShort
  let view := s.view.drop h.headerSizeBytes
  let listPayload := view.take h.payloadSizeBytes
  set { s with view := view, listPayload := listPayload }
  -- the chunks are counted unless a peek has done so
  let chunks ← if s.totalChunks = 0 then do
      let (_, chunks) ← Stateful.lift (scanChunks listPayload.length listPayload 0 0)
      pure chunks
    else pure s.totalChunks
  modify fun s => { s with totalChunks := chunks, initialized := true }

/-- What `readChunk` does once the list is open. -/
def nextChunk : ChunkedDecodeM ByteView := do
  let s ← get
  if s.chunkIndex ≥ s.totalChunks ∨ s.listPayload = [] then
    if s.listPayload ≠ [] then
      set { s with view := s.view.drop s.listPayload.length, listPayload := [] }
    -- the empty view signals completion
    return []
  else
    let h ← Stateful.lift (RlpDecoder.mk s.listPayload).peekHeader
    rejectIf h.list .kUnexpectedList
    rejectIf (s.listPayload.length < h.headerSizeBytes + h.payloadSizeBytes) .kInputTooShort
    set { s with
      listPayload := s.listPayload.drop (h.headerSizeBytes + h.payloadSizeBytes)
      chunkIndex := s.chunkIndex + 1 }
    return (s.listPayload.drop h.headerSizeBytes).take h.payloadSizeBytes

/-- `RlpChunkedListDecoder::readChunk`. -/
def readChunk : ChunkedDecodeM ByteView := do
  let s ← get
  if s.initialized then nextChunk
  else do
    startList
    nextChunk

def isFinished (s : RlpChunkedListDecoder) : Bool := s.initialized && decide (s.chunkIndex ≥ s.totalChunks)

def remaining (s : RlpChunkedListDecoder) : ByteView := s.view

end RlpChunkedListDecoder

open RlpChunkedListDecoder

variable {σ : Type}

/-- The loop of `decodeChunkedList`, with room for `fuel` rounds. -/
def decodeRounds (callback : ByteView → Nat → σ → σ) :
    Nat → RlpChunkedListDecoder → Nat → EStateM DecodingError σ Unit
  | 0, _, _ => pure ()
  | fuel + 1, s, chunkIndex =>
    match readChunk s with
    | .error e _ => throw e
    | .ok chunk t =>
      if chunk = [] then pure ()
      else do
        modify (callback chunk chunkIndex)
        decodeRounds callback fuel t (chunkIndex + 1)

/-- `decodeChunkedList`; the callback works on a state of its own. Every round but the last takes a byte at least. -/
def decodeChunkedList (callback : ByteView → Nat → σ → σ) (decoder : RlpDecoder) : EStateM DecodingError σ Unit :=
  decodeRounds callback (decoder.remaining.length + 1) (new decoder.remaining) 0

/-- `decodeChunkedListFull`. -/
def decodeChunkedListFull (decoder : RlpDecoder) : Except DecodingError Bytes :=
  match decodeChunkedList (fun chunk _ result => result ++ chunk) decoder [] with
  | .ok _ result => .ok result
  | .error e _ => .error e

/-! ## Lists of strings -/

/-- The list `[s₁, ..., sₖ]`. -/
def chunkedItem (ss : List Bytes) : Item := .list (ss.map .string)

theorem encodeAll_map_string (ss : List Bytes) : encodeAll (ss.map .string) = ss.flatMap encodeString := by
  induction ss with
  | nil => simp
  | cons s ss ih => rw [List.map_cons, encodeAll_cons, Item.encode_string, ih, List.flatMap_cons]

theorem encode_chunkedItem (ss : List Bytes) : (chunkedItem ss).encode = encodeList (ss.flatMap encodeString) := by
  rw [chunkedItem, Item.encode_list, encodeAll_map_string]

theorem length_flatten_le (ss : List Bytes) : ss.flatten.length ≤ (ss.flatMap encodeString).length := by
  induction ss with
  | nil => simp
  | cons s ss ih =>
      have := length_le_encodeString s
      rw [List.flatMap_cons, List.length_append, List.flatten_cons, List.length_append]
      omega

theorem length_lt_of_mem {ss : List Bytes} (h : (ss.flatMap encodeString).length < kSizeModulus) :
    ∀ s ∈ ss, s.length < kSizeModulus := by
  intro s hs
  have hle := (List.sublist_flatten_of_mem hs).length_le
  have := length_flatten_le ss
  omega

theorem peekHeader_encodeString {s : Bytes} (hs : s.length < kSizeModulus) (r : Bytes) :
    ∃ h, (RlpDecoder.mk (encodeString s ++ r)).peekHeader = .ok h ∧ h.list = false ∧ h.payloadSizeBytes = s.length ∧
      h.headerSizeBytes + h.payloadSizeBytes = (encodeString s).length ∧
      ((encodeString s ++ r).drop h.headerSizeBytes).take h.payloadSizeBytes = s := by
  obtain ⟨h, hc, hlist, hsize⟩ := canonicalHeader_encodeString hs r
  have hlen := hc.length_eq
  simp only [List.length_append] at hlen
  refine ⟨h, peekHeader_eq_ok_iff.mpr ⟨_, hc⟩, hlist, hsize, by omega, ?_⟩
  rw [hc.drop_eq, hsize, List.take_left]

theorem scanChunks_run {ss : List Bytes} (hss : ∀ s ∈ ss, s.length < kSizeModulus) (fuel total chunks : Nat)
    (hfuel : ss.length ≤ fuel) :
    scanChunks fuel (ss.flatMap encodeString) total chunks =
      .ok (total + ss.flatten.length, chunks + ss.length) := by
  induction ss generalizing fuel total chunks with
  | nil =>
      cases fuel with
      | zero => rfl
      | succ fuel => rfl
  | cons s ss ih =>
      obtain ⟨fuel, rfl⟩ : ∃ k, fuel = k + 1 := Nat.exists_eq_succ_of_ne_zero (by simp at hfuel; omega)
      obtain ⟨h, hpeek, hlist, hsize, htotal, -⟩ :=
        peekHeader_encodeString (hss s List.mem_cons_self) (ss.flatMap encodeString)
      have hne : encodeString s ++ ss.flatMap encodeString ≠ [] := by simp [encodeString_ne_nil]
      unfold scanChunks
      rw [List.flatMap_cons, if_neg hne, hpeek, Outcome.ok_bind, Outcome.rejectIf_bind_of_not (by simp [hlist]), htotal,
        Outcome.rejectIf_bind_of_not (by simp), List.drop_left, hsize,
        ih (fun t ht => hss t (List.mem_cons_of_mem s ht)) fuel _ _ (by simpa using hfuel)]
      rw [List.flatten_cons, List.length_append, List.length_cons, Nat.add_assoc, Nat.add_assoc, Nat.add_comm 1]

section List

variable {ss : List Bytes} (hss : (ss.flatMap encodeString).length < kSizeModulus)
include hss

theorem peekHeader_encodeList (r : Bytes) :
    ∃ h, (RlpDecoder.mk (encodeList (ss.flatMap encodeString) ++ r)).peekHeader = .ok h ∧ h.list = true ∧
      ¬ (encodeList (ss.flatMap encodeString) ++ r).length < h.headerSizeBytes + h.payloadSizeBytes ∧
      (encodeList (ss.flatMap encodeString) ++ r).drop h.headerSizeBytes = ss.flatMap encodeString ++ r ∧
      h.payloadSizeBytes = (ss.flatMap encodeString).length := by
  have hc : CanonicalHeader (headerBytes true (ss.flatMap encodeString).length ++ (ss.flatMap encodeString ++ r)) _
      (ss.flatMap encodeString ++ r) := .header hss (by simp) nofun
  rw [← List.append_assoc, ← encodeList] at hc
  have hlen := hc.length_eq
  have hle := hc.payload_le
  exact ⟨_, peekHeader_eq_ok_iff.mpr ⟨_, hc⟩, rfl, by omega, hc.drop_eq, rfl⟩

theorem scanChunks_payload : scanChunks (ss.flatMap encodeString).length (ss.flatMap encodeString) 0 0 =
    .ok (ss.flatten.length, ss.length) := by
  have hscan := scanChunks_run (length_lt_of_mem hss) _ 0 0 (card_le_length_flatMap encodeString_ne_nil ss)
  rwa [Nat.zero_add, Nat.zero_add] at hscan

end List

/-! ## One call -/

/-- The decoder with the chunks `ss` still to be read, behind `i` others. -/
def reading (view : ByteView) (ss : List Bytes) (i : Nat) : RlpChunkedListDecoder :=
  ⟨view, ss.flatMap encodeString, 0, i + ss.length, i, true⟩

theorem readChunk_reading (view : ByteView) (ss : List Bytes) (i : Nat) :
    readChunk (reading view ss i) = nextChunk (reading view ss i) := rfl

theorem readChunk_start {ss : List Bytes} (hss : (ss.flatMap encodeString).length < kSizeModulus) (r : Bytes) :
    readChunk (new (encodeList (ss.flatMap encodeString) ++ r)) =
      readChunk (reading (ss.flatMap encodeString ++ r) ss 0) := by
  have hstart : startList (new (encodeList (ss.flatMap encodeString) ++ r)) =
      .ok () (reading (ss.flatMap encodeString ++ r) ss 0) := by
    obtain ⟨h, hpeek, hlist, hlen, hdrop, hsize⟩ := peekHeader_encodeList hss r
    unfold startList new
    rw [get_bind, bind_of_ok (lift_eq_ok.mpr ⟨hpeek, rfl⟩),
      rejectIf_bind_of_not (by simp [hlist]), rejectIf_bind_of_not hlen]
    simp only [hdrop, hsize, List.take_left, set_bind, if_true]
    rw [bind_of_ok (lift_eq_ok.mpr ⟨scanChunks_payload hss, rfl⟩)]
    simp only [reading, Nat.zero_add]
    rfl
  rw [readChunk_reading]
  show (startList >>= fun _ => nextChunk) (new _) = _
  rw [bind_of_ok hstart]

/-- The next chunk of an open list, whatever the cached sizes are. -/
theorem nextChunk_cons {s : Bytes} (hs : s.length < kSizeModulus) (ss : List Bytes) {d : RlpChunkedListDecoder}
    (hpayload : d.listPayload = (s :: ss).flatMap encodeString) (hindex : d.chunkIndex < d.totalChunks) :
    nextChunk d = .ok s { d with listPayload := ss.flatMap encodeString, chunkIndex := d.chunkIndex + 1 } := by
  obtain ⟨h, hpeek, hlist, hsize, htotal, hchunk⟩ := peekHeader_encodeString hs (ss.flatMap encodeString)
  have hne : encodeString s ++ ss.flatMap encodeString ≠ [] := by simp [encodeString_ne_nil]
  unfold nextChunk
  rw [get_bind, hpayload, List.flatMap_cons, if_neg (by simp [hne, hindex]),
    bind_of_ok (lift_eq_ok.mpr ⟨hpeek, rfl⟩), rejectIf_bind_of_not (by simp [hlist]), htotal,
    rejectIf_bind_of_not (by simp), List.drop_left, set_bind, hchunk, pure_apply]

theorem nextChunk_nil {d : RlpChunkedListDecoder} (hpayload : d.listPayload = []) : nextChunk d = .ok [] d := by
  unfold nextChunk
  rw [get_bind, if_pos (.inr hpayload), if_neg (by simp [hpayload])]
  rfl

theorem readChunk_cons {s : Bytes} (hs : s.length < kSizeModulus) (view : ByteView) (ss : List Bytes) (i : Nat) :
    readChunk (reading view (s :: ss) i) = .ok s (reading view ss (i + 1)) := by
  rw [readChunk_reading, nextChunk_cons hs ss rfl (by simp [reading])]
  simp only [reading, List.length_cons, Nat.add_assoc, Nat.add_comm ss.length]

theorem readChunk_nil (view : ByteView) (i : Nat) : readChunk (reading view [] i) = .ok [] (reading view [] i) :=
  nextChunk_nil rfl

/-! ## The loop -/

def deliver (callback : ByteView → Nat → σ → σ) (calls : List (Bytes × Nat)) (acc : σ) : σ :=
  calls.foldl (fun acc call => callback call.1 call.2 acc) acc

theorem deliver_cons (callback : ByteView → Nat → σ → σ) (call : Bytes × Nat) (calls : List (Bytes × Nat)) (acc : σ) :
    deliver callback (call :: calls) acc = deliver callback calls (callback call.1 call.2 acc) := rfl

/-- The chunks in front of the first empty one. -/
def beforeEmpty (ss : List Bytes) : List Bytes := ss.takeWhile fun s => s ≠ []

theorem decodeRounds_run (callback : ByteView → Nat → σ → σ) (view : ByteView) {ss : List Bytes}
    (hss : ∀ s ∈ ss, s.length < kSizeModulus) (fuel i : Nat) (acc : σ) (hfuel : ss.length < fuel) :
    decodeRounds callback fuel (reading view ss i) i acc =
      .ok () (deliver callback ((beforeEmpty ss).zipIdx i) acc) := by
  induction ss generalizing fuel i acc with
  | nil =>
      obtain ⟨fuel, rfl⟩ : ∃ k, fuel = k + 1 := Nat.exists_eq_succ_of_ne_zero (by omega)
      simp only [decodeRounds, readChunk_nil, if_true]
      rfl
  | cons s ss ih =>
      obtain ⟨fuel, rfl⟩ : ∃ k, fuel = k + 1 := Nat.exists_eq_succ_of_ne_zero (by omega)
      simp only [decodeRounds, readChunk_cons (hss s List.mem_cons_self)]
      split_ifs with hs
      · -- the empty chunk ends the loop
        rw [hs]
        rfl
      · rw [bind_of_ok (modify_apply _ _),
          ih (fun t ht => hss t (List.mem_cons_of_mem s ht)) fuel (i + 1) _ (by simpa using hfuel)]
        simp only [beforeEmpty, List.takeWhile_cons, ne_eq, hs, not_false_eq_true, decide_true, if_true,
          List.zipIdx_cons]
        rfl

theorem decodeChunkedList_run (callback : ByteView → Nat → σ → σ) {ss : List Bytes}
    (hss : (ss.flatMap encodeString).length < kSizeModulus) (r : Bytes) (acc : σ) :
    decodeChunkedList callback ⟨encodeList (ss.flatMap encodeString) ++ r⟩ acc =
      .ok () (deliver callback (beforeEmpty ss).zipIdx acc) := by
  have hfuel : ss.length < (encodeList (ss.flatMap encodeString) ++ r).length + 1 := by
    have h1 := card_le_length_flatMap encodeString_ne_nil ss
    have h2 := length_le_encodeList (ss.flatMap encodeString)
    rw [List.length_append]
    omega
  rw [← decodeRounds_run callback (ss.flatMap encodeString ++ r) (length_lt_of_mem hss) _ 0 acc hfuel]
  unfold decodeChunkedList RlpDecoder.remaining
  simp only [decodeRounds, readChunk_start hss]

theorem deliver_append (calls : List (Bytes × Nat)) (acc : Bytes) :
    deliver (fun chunk _ result => result ++ chunk) calls acc = acc ++ (calls.map Prod.fst).flatten := by
  induction calls generalizing acc with
  | nil => simp [deliver]
  | cons call calls ih =>
      rw [deliver_cons, ih, List.map_cons, List.flatten_cons, List.append_assoc]

theorem decodeChunkedListFull_run {ss : List Bytes} (hss : (ss.flatMap encodeString).length < kSizeModulus)
    (r : Bytes) :
    decodeChunkedListFull ⟨encodeList (ss.flatMap encodeString) ++ r⟩ = .ok (beforeEmpty ss).flatten := by
  unfold decodeChunkedListFull
  rw [decodeChunkedList_run _ hss r]
  simp only [deliver_append, List.zipIdx_map_fst, List.nil_append]

theorem beforeEmpty_eq_self_iff {ss : List Bytes} : beforeEmpty ss = ss ↔ [] ∉ ss := by
  unfold beforeEmpty
  rw [List.takeWhile_eq_self_iff]
  constructor
  · intro h hmem
    simpa using h [] hmem
  · intro h s hs
    simp only [ne_eq, decide_eq_true_eq]
    exact fun heq => h (heq ▸ hs)

/-! ## Reassembly -/

/-- The callback that records its calls. -/
def record (chunk : ByteView) (chunkIndex : Nat) (calls : List (Bytes × Nat)) : List (Bytes × Nat) :=
  calls ++ [(chunk, chunkIndex)]

theorem deliver_record (calls acc : List (Bytes × Nat)) : deliver record calls acc = acc ++ calls := by
  induction calls generalizing acc with
  | nil => simp [deliver]
  | cons call calls ih =>
      rw [deliver_cons, ih, record, List.append_assoc, List.singleton_append]

/-- **Nothing of a chunked list is lost exactly when none of its chunks is empty**: the whole data are reassembled, and
the callback sees every chunk with its index. -/
theorem reassembly_complete_iff (ss : List Bytes) (hlen : (chunkedItem ss).encode.length < 2 ^ 64) :
    (decodeChunkedListFull ⟨(chunkedItem ss).encode⟩ = .ok ss.flatten ∧
        decodeChunkedList record ⟨(chunkedItem ss).encode⟩ [] = .ok () ss.zipIdx) ↔
      [] ∉ ss := by
  rw [encode_chunkedItem] at hlen ⊢
  have hss : (ss.flatMap encodeString).length < kSizeModulus :=
    lt_of_le_of_lt (length_le_encodeList _) hlen
  have hfull := decodeChunkedListFull_run hss []
  have hcalls := decodeChunkedList_run record hss [] []
  rw [List.append_nil] at hfull hcalls
  rw [hfull, hcalls, deliver_record, List.nil_append, ← beforeEmpty_eq_self_iff]
  constructor
  · intro h
    have hidx := congrArg (List.map Prod.fst) (EStateM.Result.ok.inj h.2).2
    rwa [List.zipIdx_map_fst, List.zipIdx_map_fst] at hidx
  · intro h
    rw [h]
    exact ⟨rfl, rfl⟩

theorem reassembly_complete_two_chunks :
    decodeChunkedListFull ⟨(chunkedItem [[1], [2, 3]]).encode⟩ = .ok [1, 2, 3] ∧
      decodeChunkedList record ⟨(chunkedItem [[1], [2, 3]]).encode⟩ [] = .ok () [([1], 0), ([2, 3], 1)] :=
  (reassembly_complete_iff [[1], [2, 3]] (by simp [encode_chunkedItem]; decide)).mpr (by decide)

/-- Behind an empty chunk nothing is read. -/
theorem reassembly_stops_at_empty_chunk :
    (chunkedItem [[1], [], [2]]).encode = [0xC3, 1, 0x80, 2] ∧
      decodeChunkedListFull ⟨[0xC3, 1, 0x80, 2]⟩ = .ok [1] ∧
      decodeChunkedList record ⟨[0xC3, 1, 0x80, 2]⟩ [] = .ok () [([1], 0)] := by
  refine ⟨?_, by decide, by decide⟩
  rw [encode_chunkedItem]
  decide

end DevP2P.Rlp
