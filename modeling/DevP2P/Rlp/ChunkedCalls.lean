import DevP2P.Lib.Runs
import DevP2P.Rlp.ChunkedDecoder
import DevP2P.Rlp.LargeStringDecoder

/-!
# Calls on a chunked list decoder

The first read moves the view of the decoder behind the header of the list; the sizes are cached in fields where zero
means that they are not known, and a peek that finds a zero scans again, from the view.

* `openList`, `listSizes` : what a peek and the first read find at the front of a view;
* `ChunkedCall`, `answers`, `after` : sequences of calls, in which an error does not stop the caller;
* `unread`, `Late` : the decoder in front of the first read and behind it;
* `sizes_known_iff` : when the sizes are right;
* `decoders_chain_iff` : what is left once everything is read;
* `failures_leave_state_iff` : when a read that fails leaves the decoder as it was.
-/

namespace DevP2P.Rlp
open DevP2P.Lib RlpChunkedListDecoder Stateful

/-! ## The list at the front of a view -/

/-- The view behind the header of the list at the front of `v`, and the payload of that list. -/
def openList (v : ByteView) : Except DecodingError (ByteView × ByteView) := do
  let h ← (RlpDecoder.mk v).peekHeader
  rejectIf (¬ h.list) .kUnexpectedString
  rejectIf (v.length < h.headerSizeBytes + h.payloadSizeBytes) .kInputTooShort
  return (v.drop h.headerSizeBytes, (v.drop h.headerSizeBytes).take h.payloadSizeBytes)

/-- The size and the number of the chunks in the payload `p`. -/
def chunkSizes (p : ByteView) : Except DecodingError (Nat × Nat) := scanChunks p.length p 0 0

/-- The size and the number of the chunks of the list at the front of `v`. -/
def listSizes (v : ByteView) : Except DecodingError (Nat × Nat) := openList v >>= fun opened => chunkSizes opened.2

theorem openList_eq_ok_iff {v w p : ByteView} :
    openList v = .ok (w, p) ↔ ∃ r, p.length < kSizeModulus ∧ v = encodeList p ++ r ∧ w = p ++ r := by
  unfold openList
  rw [Outcome.bind_eq_ok]
  constructor
  · rintro ⟨h, hpeek, hrest⟩
    obtain ⟨w', hc⟩ := peekHeader_eq_ok_iff.mp hpeek
    obtain ⟨hlist, hrest⟩ := Outcome.rejectIf_bind_eq_ok.mp hrest
    obtain ⟨-, hrest⟩ := Outcome.rejectIf_bind_eq_ok.mp hrest
    rw [hc.drop_eq] at hrest
    obtain ⟨rfl, rfl⟩ := Prod.mk.inj (Outcome.pure_eq_ok.mp hrest)
    obtain ⟨hp, hv⟩ := eq_encodeList_of_canonicalHeader hc (by simpa using hlist)
    exact ⟨w'.drop h.payloadSizeBytes, hp, hv, (List.take_append_drop _ _).symm⟩
  · rintro ⟨r, hp, rfl, rfl⟩
    have hc : CanonicalHeader (headerBytes true p.length ++ (p ++ r)) _ (p ++ r) := .header hp (by simp) nofun
    rw [← List.append_assoc, ← encodeList] at hc
    have hlen := hc.length_eq
    refine ⟨_, peekHeader_eq_ok_iff.mpr ⟨_, hc⟩, ?_⟩
    rw [Outcome.rejectIf_bind_of_not (by simp), Outcome.rejectIf_bind_of_not, hc.drop_eq, List.take_left]
    · rfl
    · rw [hlen, List.length_append]
      dsimp only
      omega

theorem exists_strings_of_scanChunks {fuel : Nat} {v : ByteView} {total chunks t k : Nat} (hfuel : v.length ≤ fuel)
    (h : scanChunks fuel v total chunks = .ok (t, k)) :
    ∃ ss : List Bytes, v = ss.flatMap encodeString ∧ (∀ s ∈ ss, s.length < kSizeModulus) ∧
      t = total + ss.flatten.length ∧ k = chunks + ss.length := by
  induction fuel generalizing v total chunks with
  | zero =>
      obtain ⟨rfl, rfl⟩ := Prod.mk.inj (Outcome.pure_eq_ok.mp h)
      exact ⟨[], List.eq_nil_of_length_eq_zero (Nat.le_zero.mp hfuel), by simp, rfl, rfl⟩
  | succ fuel ih =>
      unfold scanChunks at h
      split_ifs at h with hv
      · obtain ⟨rfl, rfl⟩ := Prod.mk.inj (Outcome.pure_eq_ok.mp h)
        exact ⟨[], hv, by simp, rfl, rfl⟩
      · obtain ⟨header, hpeek, h⟩ := Outcome.bind_eq_ok.mp h
        obtain ⟨w, hc⟩ := peekHeader_eq_ok_iff.mp hpeek
        obtain ⟨hlist, h⟩ := Outcome.rejectIf_bind_eq_ok.mp h
        obtain ⟨-, h⟩ := Outcome.rejectIf_bind_eq_ok.mp h
        obtain ⟨-, hdrop, -⟩ := hc.view_eq
        obtain ⟨hs, hview⟩ := readBytes_eq_ok_iff.mp (readBytes_of_canonicalHeader hc (by simpa using hlist))
        have hshort : (w.drop header.payloadSizeBytes).length ≤ fuel := by
          have hpos := hc.total_pos
          rw [← hdrop, List.length_drop]
          omega
        rw [hdrop] at h
        obtain ⟨ss, hrest, hss, rfl, rfl⟩ := ih hshort h
        refine ⟨w.take header.payloadSizeBytes :: ss, ?_, ?_, ?_, ?_⟩
        · rw [List.flatMap_cons, ← hrest, hview]
        · exact List.forall_mem_cons.mpr ⟨hs, hss⟩
        · rw [List.flatten_cons, List.length_append, hc.length_payload, Nat.add_assoc]
        · rw [List.length_cons, Nat.add_assoc, Nat.add_comm 1]

theorem chunkSizes_eq_ok_iff {p : ByteView} {t k : Nat} :
    chunkSizes p = .ok (t, k) ↔ ∃ ss : List Bytes, p = ss.flatMap encodeString ∧ (∀ s ∈ ss, s.length < kSizeModulus) ∧
      t = ss.flatten.length ∧ k = ss.length := by
  unfold chunkSizes
  constructor
  · intro h
    obtain ⟨ss, hp, hss, ht, hk⟩ := exists_strings_of_scanChunks le_rfl h
    rw [Nat.zero_add] at ht hk
    exact ⟨ss, hp, hss, ht, hk⟩
  · rintro ⟨ss, rfl, hss, rfl, rfl⟩
    rw [scanChunks_run hss _ 0 0 (card_le_length_flatMap encodeString_ne_nil ss), Nat.zero_add, Nat.zero_add]

theorem listSizes_eq_ok_iff {v : ByteView} {t k : Nat} :
    listSizes v = .ok (t, k) ↔ ∃ (ss : List Bytes) (r : Bytes), (ss.flatMap encodeString).length < kSizeModulus ∧
      v = encodeList (ss.flatMap encodeString) ++ r ∧ t = ss.flatten.length ∧ k = ss.length := by
  unfold listSizes
  rw [Outcome.bind_eq_ok]
  constructor
  · rintro ⟨⟨w, p⟩, hopen, hscan⟩
    obtain ⟨r, hp, hv, -⟩ := openList_eq_ok_iff.mp hopen
    obtain ⟨ss, rfl, -, ht, hk⟩ := chunkSizes_eq_ok_iff.mp hscan
    exact ⟨ss, r, hp, hv, ht, hk⟩
  · rintro ⟨ss, r, hp, hv, ht, hk⟩
    exact ⟨_, openList_eq_ok_iff.mpr ⟨r, hp, hv, rfl⟩, chunkSizes_eq_ok_iff.mpr ⟨ss, rfl, length_lt_of_mem hp, ht, hk⟩⟩

theorem listSizes_encodeString {s : Bytes} (hs : s.length < kSizeModulus) (r : Bytes) :
    listSizes (encodeString s ++ r) = .error .kUnexpectedString := by
  obtain ⟨h, hpeek, hlist, -⟩ := peekHeader_encodeString hs r
  unfold listSizes openList
  rw [hpeek, Outcome.ok_bind, Outcome.rejectIf_bind_of (by simp [hlist]), Outcome.error_bind]

/-! ## One call on any decoder -/

section Calls

variable {s : RlpChunkedListDecoder}

theorem peekTotalSize_of_cached (h : s.initialized ∧ s.totalSize > 0) : peekTotalSize s = .ok s.totalSize s := by
  unfold peekTotalSize
  rw [get_bind, if_pos h]
  rfl

theorem peekTotalSize_of_not_cached (h : ¬ (s.initialized ∧ s.totalSize > 0)) :
    peekTotalSize s = match listSizes s.view with
      | .ok (total, chunks) => .ok total { s with totalSize := total, totalChunks := chunks }
      | .error e => .error e s := by
  unfold peekTotalSize listSizes openList
  rw [get_bind, if_neg h]
  cases (RlpDecoder.mk s.view).peekHeader with
  | error e => rfl
  | ok header =>
      rw [bind_of_ok (lift_ok header s), Outcome.ok_bind]
      by_cases hlist : ¬ header.list
      · rw [rejectIf_bind_of hlist, Outcome.rejectIf_bind_of hlist]
        rfl
      rw [rejectIf_bind_of_not hlist, Outcome.rejectIf_bind_of_not hlist]
      by_cases hshort : s.view.length < header.headerSizeBytes + header.payloadSizeBytes
      · rw [rejectIf_bind_of hshort, Outcome.rejectIf_bind_of hshort]
        rfl
      rw [rejectIf_bind_of_not hshort, Outcome.rejectIf_bind_of_not hshort, Outcome.pure_bind]
      show _ = match chunkSizes ((s.view.drop header.headerSizeBytes).take header.payloadSizeBytes) with
        | .ok (total, chunks) => _
        | .error e => _
      unfold chunkSizes
      cases scanChunks _ ((s.view.drop header.headerSizeBytes).take header.payloadSizeBytes) 0 0 with
      | error e => rfl
      | ok sizes => rfl

theorem peekChunkCount_of_cached (h : s.initialized ∧ s.totalChunks > 0) : peekChunkCount s = .ok s.totalChunks s := by
  unfold peekChunkCount
  rw [get_bind, if_pos h]
  rfl

theorem peekChunkCount_of_not_cached (h : ¬ (s.initialized ∧ s.totalChunks > 0)) :
    peekChunkCount s = match peekTotalSize s with
      | .ok _ t => .ok t.totalChunks t
      | .error e t => .error e t := by
  unfold peekChunkCount
  rw [get_bind, if_neg h]
  cases hpeek : peekTotalSize s with
  | ok total t =>
      rw [bind_of_ok hpeek]
      rfl
  | error e t =>
      rw [bind_of_error hpeek]

theorem startList_eq : startList s = match openList s.view with
    | .error e => .error e s
    | .ok (view, listPayload) =>
      if s.totalChunks = 0 then
        match chunkSizes listPayload with
        | .error e => .error e { s with view, listPayload }
        | .ok (_, totalChunks) => .ok () { s with view, listPayload, totalChunks, initialized := true }
      else .ok () { s with view, listPayload, initialized := true } := by
  unfold startList openList
  rw [get_bind]
  cases (RlpDecoder.mk s.view).peekHeader with
  | error e => rfl
  | ok header =>
      rw [bind_of_ok (lift_ok header s), Outcome.ok_bind]
      by_cases hlist : ¬ header.list
      · rw [rejectIf_bind_of hlist, Outcome.rejectIf_bind_of hlist]
      rw [rejectIf_bind_of_not hlist, Outcome.rejectIf_bind_of_not hlist]
      by_cases hshort : s.view.length < header.headerSizeBytes + header.payloadSizeBytes
      · rw [rejectIf_bind_of hshort, Outcome.rejectIf_bind_of hshort]
      rw [rejectIf_bind_of_not hshort, Outcome.rejectIf_bind_of_not hshort, set_bind]
      show _ = if s.totalChunks = 0 then _ else _
      unfold chunkSizes
      split_ifs
      · cases scanChunks _ ((s.view.drop header.headerSizeBytes).take header.payloadSizeBytes) 0 0 with
        | error e => rfl
        | ok sizes => rfl
      · rfl

theorem readChunk_of_initialized (h : s.initialized = true) : readChunk s = nextChunk s := by
  unfold readChunk
  rw [get_bind, if_pos h]

theorem readChunk_of_unread (h : s.initialized = false) : readChunk s = (startList >>= fun _ => nextChunk) s := by
  unfold readChunk
  rw [get_bind, if_neg (by simp [h])]

end Calls

/-! ## Sequences of calls -/

inductive ChunkedCall
  | peekTotalSize
  | peekChunkCount
  | readChunk
deriving DecidableEq

inductive ChunkedReply
  | size (n : Nat)
  | chunk (v : ByteView)
deriving DecidableEq

def ChunkedCall.apply : ChunkedCall → ChunkedDecodeM ChunkedReply
  | .peekTotalSize => ChunkedReply.size <$> RlpChunkedListDecoder.peekTotalSize
  | .peekChunkCount => ChunkedReply.size <$> RlpChunkedListDecoder.peekChunkCount
  | .readChunk => ChunkedReply.chunk <$> RlpChunkedListDecoder.readChunk

def answer (s : RlpChunkedListDecoder) (call : ChunkedCall) :
    RlpChunkedListDecoder × List (ChunkedCall × Except DecodingError ChunkedReply) :=
  (finalState (call.apply s), [(call, Stateful.outcome (call.apply s))])

/-- The decoder of `data` after `calls`, whatever they return. -/
def after (data : ByteView) (calls : List ChunkedCall) : RlpChunkedListDecoder := (runEffects answer (new data) calls).1

def answers (data : ByteView) (calls : List ChunkedCall) : List (ChunkedCall × Except DecodingError ChunkedReply) :=
  (runEffects answer (new data) calls).2

theorem answer_state (s : RlpChunkedListDecoder) (call : ChunkedCall) :
    (answer s call).1 = match call with
      | .peekTotalSize => finalState (peekTotalSize s)
      | .peekChunkCount => finalState (peekChunkCount s)
      | .readChunk => finalState (readChunk s) := by
  cases call <;> exact Stateful.finalState_map _ _ s

theorem map_fst_effects (s : RlpChunkedListDecoder) (calls : List ChunkedCall) :
    (runEffects answer s calls).2.map Prod.fst = calls := by
  induction calls generalizing s with
  | nil => rfl
  | cons call calls ih =>
      rw [runEffects_cons, List.map_append, ih]
      rfl

/-! ## In front of the first read -/

/-- The decoder of `[s₁, ..., sₖ]` and `r`, on which `peekTotalSize` or `peekChunkCount` was called or not. -/
def unread (ss : List Bytes) (r : Bytes) (asked : Bool) : RlpChunkedListDecoder :=
  { new (encodeList (ss.flatMap encodeString) ++ r) with
    totalSize := if asked then ss.flatten.length else 0
    totalChunks := if asked then ss.length else 0 }

/-- The list is open, and some of its chunks are read. -/
structure Late (ss : List Bytes) (r : Bytes) (asked : Bool) (s : RlpChunkedListDecoder) : Prop where
  view : s.view = ss.flatMap encodeString ++ r
  initialized : s.initialized = true
  listPayload : s.listPayload = (ss.drop s.chunkIndex).flatMap encodeString
  /-- The sizes are those of the first read, unless there were no chunks and a peek has found a list in `r`. -/
  sizes : s.totalSize = (if asked then ss.flatten.length else 0) ∧ s.totalChunks = ss.length ∨
    ss = [] ∧ listSizes r = .ok (s.totalSize, s.totalChunks)

section Reads

variable {ss : List Bytes} (hss : (ss.flatMap encodeString).length < kSizeModulus) (r : Bytes) (asked : Bool)
include hss

theorem peekTotalSize_unread : peekTotalSize (unread ss r asked) = .ok ss.flatten.length (unread ss r true) := by
  have hsizes : listSizes (unread ss r asked).view = .ok (ss.flatten.length, ss.length) :=
    listSizes_eq_ok_iff.mpr ⟨ss, r, hss, rfl, rfl, rfl⟩
  rw [peekTotalSize_of_not_cached (by simp [unread, new]), hsizes]
  rfl

theorem peekChunkCount_unread : peekChunkCount (unread ss r asked) = .ok ss.length (unread ss r true) := by
  rw [peekChunkCount_of_not_cached (by simp [unread, new]), peekTotalSize_unread hss]
  rfl

theorem startList_unread : ∃ t, startList (unread ss r asked) = .ok () t ∧ Late ss r asked t := by
  have hopen : openList (unread ss r asked).view = .ok (ss.flatMap encodeString ++ r, ss.flatMap encodeString) :=
    openList_eq_ok_iff.mpr ⟨r, hss, rfl, rfl⟩
  have hscan : chunkSizes (ss.flatMap encodeString) = .ok (ss.flatten.length, ss.length) :=
    chunkSizes_eq_ok_iff.mpr ⟨ss, rfl, length_lt_of_mem hss, rfl, rfl⟩
  rw [startList_eq, hopen]
  dsimp only
  rw [hscan]
  split_ifs with hcounted
  · exact ⟨_, rfl, rfl, rfl, rfl, .inl ⟨rfl, rfl⟩⟩
  · refine ⟨_, rfl, rfl, rfl, rfl, .inl ⟨rfl, ?_⟩⟩
    cases asked with
    | false => exact absurd rfl hcounted
    | true => rfl

variable {r asked} in
theorem Late.nextChunk {s : RlpChunkedListDecoder} (h : Late ss r asked s) :
    ∃ chunk t, RlpChunkedListDecoder.nextChunk s = .ok chunk t ∧ Late ss r asked t := by
  cases hrest : ss.drop s.chunkIndex with
  | nil => exact ⟨[], s, nextChunk_nil (by rw [h.listPayload, hrest]; rfl), h⟩
  | cons c rest =>
      have hlt : s.chunkIndex < ss.length := by
        by_contra hge
        rw [List.drop_eq_nil_of_le (not_lt.mp hge)] at hrest
        cases hrest
      have hindex : s.chunkIndex < s.totalChunks := by
        rcases h.sizes with ⟨-, hchunks⟩ | ⟨rfl, -⟩
        · rwa [hchunks]
        · cases hlt
      have hc : c.length < kSizeModulus :=
        length_lt_of_mem hss c (List.mem_of_mem_drop (hrest ▸ List.mem_cons_self))
      refine ⟨c, _, nextChunk_cons hc rest (by rw [h.listPayload, hrest]) hindex, h.view, h.initialized, ?_, h.sizes⟩
      have htail := congrArg List.tail hrest
      rw [List.tail_drop] at htail
      dsimp only
      rw [htail, List.tail_cons]

theorem readChunk_unread : ∃ chunk t, readChunk (unread ss r asked) = .ok chunk t ∧ Late ss r asked t := by
  obtain ⟨t, hstart, hlate⟩ := startList_unread hss r asked
  rw [readChunk_of_unread rfl, bind_of_ok hstart]
  exact hlate.nextChunk hss

/-! ## Behind the first read -/

/-- What `peekTotalSize` returns behind the first read. -/
def lateTotal (ss : List Bytes) (r : Bytes) (asked : Bool) : Except DecodingError Nat :=
  if asked ∧ 0 < ss.flatten.length then .ok ss.flatten.length else (listSizes (ss.flatMap encodeString ++ r)).map
    Prod.fst

/-- What `peekChunkCount` returns behind the first read. -/
def lateCount (ss : List Bytes) (r : Bytes) : Except DecodingError Nat :=
  if ss = [] then (listSizes r).map Prod.snd else .ok ss.length

theorem listSizes_strings (hne : ss ≠ []) : listSizes (ss.flatMap encodeString ++ r) = .error .kUnexpectedString := by
  obtain ⟨s, rest, rfl⟩ := List.exists_cons_of_ne_nil hne
  rw [List.flatMap_cons, List.append_assoc]
  exact listSizes_encodeString (length_lt_of_mem hss s List.mem_cons_self) _

variable {r asked} {s : RlpChunkedListDecoder}

/-- Sizes that a peek finds behind the first read are those of a list in `r`. -/
theorem Late.of_listSizes (h : Late ss r asked s) {t k : Nat} (hsizes : listSizes s.view = .ok (t, k)) :
    ss = [] ∧ listSizes r = .ok (t, k) := by
  rw [h.view] at hsizes
  by_cases hne : ss = []
  · rw [hne] at hsizes
    exact ⟨hne, hsizes⟩
  · rw [listSizes_strings hss r hne] at hsizes
    cases hsizes

theorem Late.peekTotalSize (h : Late ss r asked s) :
    Late ss r asked (finalState (RlpChunkedListDecoder.peekTotalSize s)) ∧
      Stateful.outcome (RlpChunkedListDecoder.peekTotalSize s) = lateTotal ss r asked := by
  by_cases hcached : s.initialized ∧ s.totalSize > 0
  · rw [peekTotalSize_of_cached hcached]
    refine ⟨h, ?_⟩
    show Except.ok s.totalSize = _
    unfold lateTotal
    rcases h.sizes with ⟨hsize, -⟩ | ⟨rfl, hsizes⟩
    · have hpos := hcached.2
      rw [hsize] at hpos ⊢
      split_ifs at hpos ⊢ with hasked hboth hboth
      · rfl
      · exact absurd ⟨hasked, hpos⟩ hboth
      · cases hpos
      · cases hpos
    · rw [if_neg (by simp), List.flatMap_nil, List.nil_append, hsizes]
      rfl
  · rw [peekTotalSize_of_not_cached hcached]
    have hzero : s.totalSize = 0 := by
      by_contra hne
      exact hcached ⟨h.initialized, Nat.pos_of_ne_zero hne⟩
    have hrescan : lateTotal ss r asked = (listSizes s.view).map Prod.fst := by
      unfold lateTotal
      rw [h.view, if_neg]
      rintro ⟨hasked, hpos⟩
      rcases h.sizes with ⟨hsize, -⟩ | ⟨rfl, -⟩
      · rw [hzero, if_pos hasked] at hsize
        omega
      · cases hpos
    rw [hrescan]
    cases hsizes : listSizes s.view with
    | error e => exact ⟨h, rfl⟩
    | ok sizes => exact ⟨⟨h.view, h.initialized, h.listPayload, .inr (h.of_listSizes hss hsizes)⟩, rfl⟩

theorem Late.peekChunkCount (h : Late ss r asked s) :
    Late ss r asked (finalState (RlpChunkedListDecoder.peekChunkCount s)) ∧
      Stateful.outcome (RlpChunkedListDecoder.peekChunkCount s) = lateCount ss r := by
  by_cases hcached : s.initialized ∧ s.totalChunks > 0
  · rw [peekChunkCount_of_cached hcached]
    refine ⟨h, ?_⟩
    show Except.ok s.totalChunks = _
    unfold lateCount
    rcases h.sizes with ⟨-, hchunks⟩ | ⟨rfl, hsizes⟩
    · have hne : ss ≠ [] := by
        rintro rfl
        rw [hchunks] at hcached
        cases hcached.2
      rw [if_neg hne, hchunks]
    · rw [if_pos rfl, hsizes]
      rfl
  · have hzero : s.totalChunks = 0 := by
      by_contra hne
      exact hcached ⟨h.initialized, Nat.pos_of_ne_zero hne⟩
    -- without chunks the size is zero as well, and the list is scanned again
    have hempty : ss = [] ∧ s.totalSize = 0 := by
      rcases h.sizes with ⟨hsize, hchunks⟩ | ⟨rfl, hsizes⟩
      · obtain rfl : ss = [] := List.eq_nil_of_length_eq_zero (hchunks.symm.trans hzero)
        refine ⟨rfl, hsize.trans ?_⟩
        split_ifs <;> rfl
      · obtain ⟨ts, r', -, -, hsize, hcount⟩ := listSizes_eq_ok_iff.mp hsizes
        obtain rfl : ts = [] := List.eq_nil_of_length_eq_zero (hcount.symm.trans hzero)
        exact ⟨rfl, hsize⟩
    obtain ⟨rfl, hsize⟩ := hempty
    have hview : s.view = r := h.view
    rw [peekChunkCount_of_not_cached hcached, peekTotalSize_of_not_cached (by simp [hsize]), hview]
    unfold lateCount
    rw [if_pos rfl]
    cases hsizes : listSizes r with
    | error e => exact ⟨h, rfl⟩
    | ok sizes => exact ⟨⟨rfl, h.initialized, h.listPayload, .inr ⟨rfl, hsizes⟩⟩, rfl⟩

/-! ## The calls up to the first read and behind it -/

def lateReply (ss : List Bytes) (r : Bytes) (asked : Bool) : ChunkedCall → Except DecodingError Nat
  | .peekTotalSize => lateTotal ss r asked
  | _ => lateCount ss r

theorem Late.answer (h : Late ss r asked s) (call : ChunkedCall) :
    Late ss r asked (Rlp.answer s call).1 ∧
      (call ≠ .readChunk → Stateful.outcome (call.apply s) = (lateReply ss r asked call).map .size) := by
  rw [answer_state]
  cases call with
  | peekTotalSize =>
      obtain ⟨hlate, hreply⟩ := h.peekTotalSize hss
      exact ⟨hlate, fun _ => (Stateful.outcome_map _ _ s).trans (congrArg _ hreply)⟩
  | peekChunkCount =>
      obtain ⟨hlate, hreply⟩ := h.peekChunkCount hss
      exact ⟨hlate, fun _ => (Stateful.outcome_map _ _ s).trans (congrArg _ hreply)⟩
  | readChunk =>
      obtain ⟨chunk, t, hnext, hlate⟩ := h.nextChunk hss
      rw [← readChunk_of_initialized h.initialized] at hnext
      rw [hnext]
      exact ⟨hlate, fun hne => absurd rfl hne⟩

theorem Late.run (h : Late ss r asked s) (calls : List ChunkedCall) :
    Late ss r asked (runEffects Rlp.answer s calls).1 :=
  runEffects_state (fun call _ _ hs => (hs.answer hss call).1) h

theorem Late.effects (h : Late ss r asked s) (calls : List ChunkedCall) :
    ∀ e ∈ (runEffects Rlp.answer s calls).2, e.1 ≠ .readChunk → e.2 = (lateReply ss r asked e.1).map .size := by
  intro e he
  obtain ⟨before, call, after, -, hcall⟩ := exists_call_of_mem he
  rw [List.mem_singleton.mp hcall]
  exact ((h.run hss before).answer hss call).2

/-- The size that a peek asks for. -/
def trueSize (ss : List Bytes) : ChunkedCall → Nat
  | .peekTotalSize => ss.flatten.length
  | _ => ss.length

variable (r asked) in
theorem apply_unread {call : ChunkedCall} (hcall : call ≠ .readChunk) :
    call.apply (unread ss r asked) = .ok (.size (trueSize ss call)) (unread ss r true) := by
  cases call with
  | peekTotalSize => exact map_of_ok _ (peekTotalSize_unread hss r asked)
  | peekChunkCount => exact map_of_ok _ (peekChunkCount_unread hss r asked)
  | readChunk => exact absurd rfl hcall

variable (r asked) in
theorem answer_unread {call : ChunkedCall} (hcall : call ≠ .readChunk) :
    answer (unread ss r asked) call = (unread ss r true, [(call, .ok (.size (trueSize ss call)))]) := by
  unfold answer
  rw [apply_unread hss r asked hcall]
  rfl

variable (r asked) in
theorem run_unread {calls : List ChunkedCall} (hcalls : .readChunk ∉ calls) :
    runEffects answer (unread ss r asked) calls =
      (unread ss r (asked || !calls.isEmpty), calls.map fun call => (call, .ok (.size (trueSize ss call)))) := by
  induction calls generalizing asked with
  | nil => rw [List.isEmpty_nil, Bool.not_true, Bool.or_false]; rfl
  | cons call calls ih =>
      rw [List.mem_cons, not_or] at hcalls
      rw [runEffects_cons, answer_unread hss r asked (Ne.symm hcalls.1), ih true hcalls.2, List.isEmpty_cons,
        Bool.not_false,
        Bool.or_true, Bool.true_or]
      rfl

theorem unread_or_late (r : Bytes) (calls : List ChunkedCall) :
    ∃ asked, after (encodeList (ss.flatMap encodeString) ++ r) calls = unread ss r asked ∨
      Late ss r asked (after (encodeList (ss.flatMap encodeString) ++ r) calls) := by
  refine runEffects_state (I := fun s => ∃ asked, s = unread ss r asked ∨ Late ss r asked s) ?_ ⟨false, .inl rfl⟩
  rintro call - s ⟨asked, rfl | hlate⟩
  · by_cases hcall : call = .readChunk
    · obtain ⟨chunk, t, hread, hlate⟩ := readChunk_unread hss r asked
      rw [hcall, answer_state, hread]
      exact ⟨asked, .inr hlate⟩
    · rw [answer_unread hss r asked hcall]
      exact ⟨true, .inl rfl⟩
  · exact ⟨asked, .inr (hlate.answer hss call).1⟩

end Reads

/-! ## The sizes -/

/-- Each peek was answered with the size it asks for. -/
def SizesRight (ss : List Bytes) (answers : List (ChunkedCall × Except DecodingError ChunkedReply)) : Prop :=
  ∀ call reply, (call, reply) ∈ answers → call ≠ .readChunk → reply = .ok (.size (trueSize ss call))

def lateCalls (calls : List ChunkedCall) : List ChunkedCall := calls.dropWhile (· ≠ .readChunk)

theorem map_size_eq_ok {x : Except DecodingError Nat} {n : Nat} :
    x.map ChunkedReply.size = .ok (.size n) ↔ x = .ok n := by
  cases x with
  | error e => simp [Except.map]
  | ok m => simp [Except.map]

theorem asked_iff {calls : List ChunkedCall} (h : lateCalls calls ≠ []) :
    (!(calls.takeWhile (· ≠ .readChunk)).isEmpty) = decide (calls.head? ≠ some .readChunk) := by
  cases calls with
  | nil => exact absurd rfl h
  | cons call calls => cases call <;> rfl

theorem lateCalls_cons {calls rest : List ChunkedCall} {first : ChunkedCall} (h : lateCalls calls = first :: rest) :
    first = .readChunk := by
  have hhead := List.head?_dropWhile_not (· ≠ ChunkedCall.readChunk) calls
  rw [← lateCalls, h] at hhead
  simpa using hhead

theorem sizesRight_iff {ss : List Bytes} (hss : (ss.flatMap encodeString).length < kSizeModulus) (r : Bytes)
    (calls : List ChunkedCall) :
    SizesRight ss (answers (encodeList (ss.flatMap encodeString) ++ r) calls) ↔
      ∀ call ∈ lateCalls calls, call ≠ .readChunk →
        lateReply ss r (calls.head? ≠ some .readChunk) call = .ok (trueSize ss call) := by
  have hearly : ChunkedCall.readChunk ∉ calls.takeWhile (· ≠ .readChunk) := fun hmem => by
    simpa using List.mem_takeWhile_imp hmem
  have hrun := run_unread hss r false hearly
  have hpeeks : ∀ e ∈ (calls.takeWhile (· ≠ .readChunk)).map fun call =>
      (call, Except.ok (ChunkedReply.size (trueSize ss call))),
      e.2 = (.ok (.size (trueSize ss e.1)) : Except DecodingError ChunkedReply) := by
    intro e he
    obtain ⟨call, -, rfl⟩ := List.mem_map.mp he
    rfl
  have hanswers : answers (encodeList (ss.flatMap encodeString) ++ r) calls =
      (runEffects answer (unread ss r false) (calls.takeWhile (· ≠ .readChunk) ++ lateCalls calls)).2 := by
    rw [lateCalls, List.takeWhile_append_dropWhile]
    rfl
  rw [hanswers, runEffects_append, hrun]
  cases hlate : lateCalls calls with
  | nil =>
      refine ⟨fun _ call hcall => (nomatch hcall), fun _ call reply hmem _ => ?_⟩
      rw [runEffects_nil, List.append_nil] at hmem
      exact hpeeks _ hmem
  | cons first rest =>
      obtain rfl := lateCalls_cons hlate
      rw [Bool.false_or, asked_iff (by simp [hlate])]
      obtain ⟨chunk, t, hread, hopened⟩ := readChunk_unread hss r (calls.head? ≠ some .readChunk)
      have hstate : (answer (unread ss r (calls.head? ≠ some .readChunk)) .readChunk).1 =
          t := by rw [answer_state, hread]; rfl
      rw [runEffects_cons, hstate]
      have heffects := hopened.effects hss rest
      constructor
      · intro hright call hcall hpeek
        have hrest : call ∈ rest := (List.mem_cons.mp hcall).resolve_left hpeek
        rw [← map_fst_effects t rest] at hrest
        obtain ⟨⟨call, reply⟩, hmem, rfl⟩ := List.mem_map.mp hrest
        have hreply := hright call reply (by simp [hmem]) hpeek
        exact map_size_eq_ok.mp ((heffects _ hmem hpeek).symm.trans hreply)
      · intro hlateRight call reply hmem hpeek
        rcases List.mem_append.mp hmem with hmem | hmem
        · exact hpeeks _ hmem
        rcases List.mem_append.mp hmem with hmem | hmem
        · rw [answer, List.mem_singleton] at hmem
          exact absurd (congrArg Prod.fst hmem) hpeek
        · have hrest : call ∈ rest := map_fst_effects t rest ▸ List.mem_map_of_mem (f := Prod.fst) hmem
          have hreply : reply = (lateReply ss r (calls.head? ≠ some .readChunk) call).map .size := heffects _ hmem hpeek
          rw [hreply]
          exact map_size_eq_ok.mpr (hlateRight call (List.mem_cons_of_mem _ hrest) hpeek)

theorem lateTotal_eq_iff {ss : List Bytes} (hss : (ss.flatMap encodeString).length < kSizeModulus) {r : Bytes}
    (hr : r.length < kSizeModulus) (asked : Bool) :
    lateTotal ss r asked = .ok ss.flatten.length ↔
      asked = true ∧ ss.flatten ≠ [] ∨ ss = [] ∧ ∃ ts r', r = (chunkedItem ts).encode ++ r' ∧ ts.flatten = [] := by
  unfold lateTotal
  have hpos : 0 < ss.flatten.length ↔ ss.flatten ≠ [] := List.length_pos_iff
  split_ifs with hknown
  · exact ⟨fun _ => .inl ⟨hknown.1, hpos.mp hknown.2⟩, fun _ => rfl⟩
  by_cases hne : ss = []
  · subst hne
    rw [List.flatMap_nil, List.nil_append]
    constructor
    · intro h
      cases hsizes : listSizes r with
      | error e =>
          rw [hsizes] at h
          cases h
      | ok sizes =>
          obtain ⟨ts, r', -, heq, htotal, -⟩ := listSizes_eq_ok_iff.mp hsizes
          rw [hsizes] at h
          have hzero : sizes.1 = 0 := Except.ok.inj h
          exact .inr ⟨rfl, ts, r', by rwa [encode_chunkedItem], List.eq_nil_of_length_eq_zero (htotal.symm.trans hzero)⟩
    · rintro (⟨-, h⟩ | ⟨-, ts, r', heq, htotal⟩)
      · exact absurd rfl h
      · rw [encode_chunkedItem] at heq
        have hts : (ts.flatMap encodeString).length < kSizeModulus := by
          have hle := length_le_encodeList (ts.flatMap encodeString)
          rw [heq, List.length_append] at hr
          omega
        rw [listSizes_eq_ok_iff.mpr ⟨ts, r', hts, heq, rfl, rfl⟩, htotal]
        rfl
  · rw [listSizes_strings hss r hne]
    refine ⟨nofun, ?_⟩
    rintro (⟨hasked, h⟩ | ⟨h, -⟩)
    · exact absurd ⟨hasked, hpos.mpr h⟩ hknown
    · exact absurd h hne

theorem lateCount_eq_iff (ss : List Bytes) (r : Bytes) :
    lateCount ss r = .ok ss.length ↔ ss ≠ [] ∨ ∃ r', r = (chunkedItem []).encode ++ r' := by
  unfold lateCount
  split_ifs with hne
  · subst hne
    constructor
    · intro h
      cases hsizes : listSizes r with
      | error e =>
          rw [hsizes] at h
          cases h
      | ok sizes =>
          obtain ⟨ts, r', -, heq, -, hcount⟩ := listSizes_eq_ok_iff.mp hsizes
          rw [hsizes] at h
          have hzero : sizes.2 = 0 := Except.ok.inj h
          obtain rfl : ts = [] := List.eq_nil_of_length_eq_zero (hcount.symm.trans hzero)
          exact .inr ⟨r', by rwa [encode_chunkedItem]⟩
    · rintro (h | ⟨r', heq⟩)
      · exact absurd rfl h
      · rw [encode_chunkedItem] at heq
        rw [listSizes_eq_ok_iff.mpr ⟨[], r', Nat.two_pow_pos 64, heq, rfl, rfl⟩]
        rfl
  · exact ⟨fun _ => .inl hne, fun _ => rfl⟩

/-- **The sizes of a chunked list depend on when they are asked for.** They are right in front of the first read. Behind
it the total size is right exactly if a peek came before and it is not zero, or if the list is empty and a list of empty
strings follows; the number of chunks is right exactly if it is not zero or if an empty list follows. -/
theorem sizes_known_iff (ss : List Bytes) (r : Bytes) (hlen : ((chunkedItem ss).encode ++ r).length < 2 ^ 64)
    (calls : List ChunkedCall) :
    SizesRight ss (answers ((chunkedItem ss).encode ++ r) calls) ↔
      (.peekTotalSize ∈ lateCalls calls →
        calls.head? ≠ some .readChunk ∧ ss.flatten ≠ [] ∨
          ss = [] ∧ ∃ ts r', r = (chunkedItem ts).encode ++ r' ∧ ts.flatten = []) ∧
      (.peekChunkCount ∈ lateCalls calls → ss ≠ [] ∨ ∃ r', r = (chunkedItem []).encode ++ r') := by
  rw [encode_chunkedItem ss, List.length_append] at hlen
  have hss : (ss.flatMap encodeString).length < kSizeModulus :=
    lt_of_le_of_lt (length_le_encodeList _) (lt_of_le_of_lt (Nat.le_add_right _ _) hlen)
  have hr : r.length < kSizeModulus := lt_of_le_of_lt (Nat.le_add_left _ _) hlen
  have htotal := lateTotal_eq_iff hss hr (calls.head? ≠ some .readChunk)
  have hcount := lateCount_eq_iff ss r
  rw [decide_eq_true_eq] at htotal
  rw [encode_chunkedItem ss, sizesRight_iff hss, ← htotal, ← hcount]
  constructor
  · intro h
    exact ⟨fun hmem => h _ hmem nofun, fun hmem => h _ hmem nofun⟩
  · rintro ⟨hsize, hchunks⟩ call hmem hpeek
    cases call with
    | peekTotalSize => exact hsize hmem
    | peekChunkCount => exact hchunks hmem
    | readChunk => exact absurd rfl hpeek

theorem sizes_known_after_peek :
    SizesRight [[1], [2, 3]] (answers ((chunkedItem [[1], [2, 3]]).encode ++ [5])
      [.peekTotalSize, .readChunk, .peekTotalSize, .peekChunkCount]) :=
  (sizes_known_iff [[1], [2, 3]] [5] (by rw [encode_chunkedItem]; decide) _).mpr
    ⟨fun _ => .inl (by decide), fun _ => .inl (by decide)⟩

/-- After the first read the total size is looked for in the first chunk; behind an empty list, in what follows. -/
theorem sizes_lost_after_read :
    (chunkedItem [[1], [2]]).encode = [0xC2, 1, 2] ∧
      answers [0xC2, 1, 2] [.readChunk, .peekTotalSize] =
        [(.readChunk, .ok (.chunk [1])), (.peekTotalSize, .error .kUnexpectedString)] ∧
      (chunkedItem []).encode = [0xC0] ∧
      answers ([0xC0] ++ [0xC2, 1, 2]) [.peekChunkCount, .readChunk, .peekChunkCount] =
        [(.peekChunkCount, .ok (.size 0)), (.readChunk, .ok (.chunk [])), (.peekChunkCount, .ok (.size 2))] := by
  rw [encode_chunkedItem, encode_chunkedItem]
  decide

/-! ## What is left when everything is read -/

/-- Once the decoder of `[s₁, ..., sₖ]` and `r` has finished, it stands at `r`. -/
def ListChains (ss : List Bytes) (r : Bytes) : Prop :=
  ∀ calls, (after ((chunkedItem ss).encode ++ r) calls).isFinished = true →
    (after ((chunkedItem ss).encode ++ r) calls).remaining = r

/-- Once the decoder of the string `s` and `r` has finished, it stands at `r`. -/
def StringChains (s r : Bytes) : Prop :=
  ∀ sizes, (RlpLargeStringDecoder.after ((Item.string s).encode ++ r) sizes).isFinished = true →
    (RlpLargeStringDecoder.after ((Item.string s).encode ++ r) sizes).remaining = r

theorem run_reading (view : ByteView) {ss : List Bytes} (hss : ∀ s ∈ ss, s.length < kSizeModulus) (i : Nat) :
    (runEffects answer (reading view ss i) (List.replicate ss.length .readChunk)).1 = reading view []
    (i + ss.length) := by
  induction ss generalizing i with
  | nil => rfl
  | cons s ss ih =>
      rw [List.length_cons, List.replicate_succ, runEffects_cons, answer_state,
        readChunk_cons (hss s List.mem_cons_self)]
      exact (ih (fun t ht => hss t (List.mem_cons_of_mem s ht)) (i + 1)).trans (by rw [Nat.add_assoc, Nat.add_comm 1])

theorem exists_finished {ss : List Bytes} (hss : (ss.flatMap encodeString).length < kSizeModulus)
    (hne : ss ≠ []) (r : Bytes) :
    ∃ calls, after (encodeList (ss.flatMap encodeString) ++ r) calls =
      reading (ss.flatMap encodeString ++ r) [] ss.length := by
  refine ⟨List.replicate ss.length .readChunk, ?_⟩
  have hrun := run_reading (ss.flatMap encodeString ++ r) (length_lt_of_mem hss) 0
  rw [Nat.zero_add] at hrun
  obtain ⟨s, rest, rfl⟩ := List.exists_cons_of_ne_nil hne
  rw [← hrun, List.length_cons, List.replicate_succ, after, runEffects_cons, runEffects_cons,
    answer_state, answer_state,
    readChunk_start hss]

/-- **The decoder of a chunked list never passes the chunks**: once it has finished it stands at what follows the list
exactly if there was nothing to read. The decoder of a string does stand at what follows. -/
theorem decoders_chain_iff (ss : List Bytes) (s r : Bytes) (hlist : (chunkedItem ss).encode.length < 2 ^ 64)
    (hstring : (Item.string s).encode.length < 2 ^ 64) : ListChains ss r ∧ StringChains s r ↔ ss = [] := by
  rw [encode_chunkedItem] at hlist
  rw [Item.encode_string] at hstring
  have hss : (ss.flatMap encodeString).length < kSizeModulus := lt_of_le_of_lt (length_le_encodeList _) hlist
  have hs : s.length < kSizeModulus := lt_of_le_of_lt (length_le_encodeString _) hstring
  have hchains : StringChains s r := by
    intro sizes h
    rw [Item.encode_string] at h ⊢
    exact RlpLargeStringDecoder.remaining_of_isFinished hs r sizes h
  rw [and_iff_left hchains]
  unfold ListChains
  rw [encode_chunkedItem]
  constructor
  · intro h
    by_contra hne
    obtain ⟨calls, hcalls⟩ := exists_finished hss hne r
    have hleft := h calls (by rw [hcalls]; simp [isFinished, reading])
    rw [hcalls] at hleft
    obtain ⟨c, rest, rfl⟩ := List.exists_cons_of_ne_nil hne
    exact absurd (List.append_left_eq_self.mp hleft) (by simp [encodeString_ne_nil])
  · rintro rfl calls hfinished
    obtain ⟨asked, hunread | hlate⟩ := unread_or_late hss r calls
    · rw [hunread] at hfinished
      cases hfinished
    · exact hlate.view

theorem decoders_chain_empty_list : ListChains [] [7] ∧ StringChains [1, 2] [7] :=
  (decoders_chain_iff [] [1, 2] [7] (by rw [encode_chunkedItem]; decide) (by rw [Item.encode_string]; decide)).mpr rfl

/-- The only chunk is read, and what is left starts with it. -/
theorem decoder_stays_at_chunks :
    (chunkedItem [[1]]).encode = [0xC1, 1] ∧
      (after ([0xC1, 1] ++ [7]) [.readChunk]).isFinished = true ∧
      (after ([0xC1, 1] ++ [7]) [.readChunk]).remaining = [1, 7] ∧
      (after ([0xC1, 1] ++ [7]) [.readChunk, .readChunk]).remaining = [1, 7] := by
  rw [encode_chunkedItem]
  decide

/-! ## Reads that fail -/

/-- A read that fails leaves the decoder as it was: it fails again in the same way. -/
def FailureKeeps (s : RlpChunkedListDecoder) : Prop :=
  ∀ e t, readChunk s = .error e t → t = s ∧ readChunk t = .error e t ∧ t.remaining = s.remaining

theorem readChunk_of_openList_error {b : ByteView} {e : DecodingError} (h : openList b = .error e) :
    readChunk (new b) = .error e (new b) := by
  have hstart : startList (new b) = .error e (new b) := by
    rw [startList_eq, show openList (new b).view = .error e from h]
  exact (readChunk_of_unread rfl).trans (bind_of_error hstart _)

theorem readChunk_of_chunkSizes_error {payload : Bytes} (hpayload : payload.length < kSizeModulus) (r : Bytes)
    {e : DecodingError}
    (h : chunkSizes payload = .error e) :
    readChunk (new (encodeList payload ++ r)) =
      .error e { new (encodeList payload ++ r) with view := payload ++ r, listPayload := payload } := by
  have hopen : openList (new (encodeList payload ++ r)).view = .ok (payload ++ r, payload) :=
    openList_eq_ok_iff.mpr ⟨r, hpayload, rfl, rfl⟩
  have hstart : startList (new (encodeList payload ++ r)) =
      .error e { new (encodeList payload ++ r) with view := payload ++ r, listPayload := payload } := by
    rw [startList_eq, hopen]
    dsimp only
    rw [h]
    rfl
  exact (readChunk_of_unread rfl).trans (bind_of_error hstart _)

theorem after_of_openList_error {b : ByteView} {e : DecodingError} (h : openList b = .error e)
    (calls : List ChunkedCall) :
    after b calls = new b := by
  have hsizes : listSizes (new b).view = .error e := by
    unfold listSizes
    rw [show openList (new b).view = .error e from h]
    rfl
  have hpeek : peekTotalSize (new b) = .error e (new b) := by
    rw [peekTotalSize_of_not_cached (by simp [new]), hsizes]
  refine runEffects_state (I := fun s => s = new b) ?_ rfl
  rintro call - s rfl
  rw [answer_state]
  cases call with
  | peekTotalSize => rw [hpeek]; rfl
  | peekChunkCount => rw [peekChunkCount_of_not_cached (by simp [new]), hpeek]; rfl
  | readChunk => rw [readChunk_of_openList_error h]; rfl

/-- **A read that fails leaves the decoder as it was** for exactly the inputs that do not start with a list whose
payload is no sequence of strings. -/
theorem failures_leave_state_iff (b : ByteView) :
    (∀ calls, FailureKeeps (after b calls)) ↔
      ∀ payload r : Bytes, payload.length < 2 ^ 64 → b = encodeList payload ++ r →
        ∃ ss : List Bytes, payload = ss.flatMap encodeString := by
  constructor
  · rintro h payload r hpayload rfl
    by_contra hno
    cases hscan : chunkSizes payload with
    | ok sizes =>
        obtain ⟨ss, hss, -⟩ := chunkSizes_eq_ok_iff.mp hscan
        exact hno ⟨ss, hss⟩
    | error e =>
        have hread := readChunk_of_chunkSizes_error hpayload r hscan
        have hview := congrArg RlpChunkedListDecoder.view (h [] e _ hread).1
        exact ne_encodeList payload (List.append_cancel_right hview)
  · intro h calls
    cases hopen : openList b with
    | error e =>
        rw [after_of_openList_error hopen]
        intro e' t hread
        have hfail := readChunk_of_openList_error hopen
        obtain ⟨rfl, rfl⟩ := EStateM.Result.error.inj (hfail.symm.trans hread)
        exact ⟨rfl, hfail, rfl⟩
    | ok opened =>
        obtain ⟨w, payload⟩ := opened
        obtain ⟨r, hpayload, rfl, -⟩ := openList_eq_ok_iff.mp hopen
        obtain ⟨ss, rfl⟩ := h payload r hpayload rfl
        intro e t hread
        obtain ⟨asked, hunread | hlate⟩ := unread_or_late hpayload r calls
        · obtain ⟨chunk, t', hok, -⟩ := readChunk_unread hpayload r asked
          rw [hunread, hok] at hread
          cases hread
        · obtain ⟨chunk, t', hok, -⟩ := hlate.nextChunk hpayload
          rw [readChunk_of_initialized hlate.initialized, hok] at hread
          cases hread

/-- A list in the list: the first read fails behind the header, and the second one takes the inner list for the outer
one. -/
theorem failed_read_skips_header :
    readChunk (new [0xC1, 0xC0]) = .error .kUnexpectedList ⟨[0xC0], [0xC0], 0, 0, 0, false⟩ ∧
      readChunk ⟨[0xC0], [0xC0], 0, 0, 0, false⟩ = .ok [] ⟨[], [], 0, 0, 0, true⟩ := by
  decide

end DevP2P.Rlp
