import DevP2P.Lib.Runs
import DevP2P.Rlp.LargeStringDecoder
import Mathlib.Data.Stream.Init

/-!
# A string in pieces

The streaming decoder of a string next to `read(Bytes&)`, which returns it as a whole.

* `answer`, `returned` : reads with a limit each, in which an error does not stop the caller;
* `Counts s es` : the position of the decoder is the length of what was returned, and the rest of the payload is in its
  view; `Counts.run` : every sequence of reads keeps it;
* `startString_of_readBytes_error`, `peekPayloadSize_new` : the header is checked as by `read(Bytes&)`;
* `streamed_string_agrees` : the pieces are those of the string that `read(Bytes&)` returns.
-/

namespace DevP2P.Rlp
open DevP2P.Lib Stateful

namespace RlpLargeStringDecoder

def answer (s : RlpLargeStringDecoder) (size : Nat) : RlpLargeStringDecoder × List (Except DecodingError ByteView) :=
  (finalState (readChunk size s), [Stateful.outcome (readChunk size s)])

/-- What the reads with the limits `sizes` return. -/
def returned (data : ByteView) (sizes : List Nat) : List (Except DecodingError ByteView) :=
  (runEffects answer (new data) sizes).2

def received (es : List (Except DecodingError ByteView)) : Bytes := es.flatMap fun e => e.toOption.getD []

theorem after_eq (data : ByteView) (sizes : List Nat) : after data sizes = (runEffects answer (new data) sizes).1 := by
  rw [runEffects_fst]
  rfl

theorem view_new (data : ByteView) : (new data).view = data := rfl

theorem received_concat (es : List (Except DecodingError ByteView)) (chunk : ByteView) :
    received (es ++ [.ok chunk]) = received es ++ chunk := by
  simp [received, Except.toOption]

theorem received_concat_error (es : List (Except DecodingError ByteView)) (e : DecodingError) :
    received (es ++ [.error e]) = received es := by
  simp [received, Except.toOption]

/-! ## Positions -/

/-- The position is the length of what was returned, and the rest of the payload is in the view. -/
structure Counts (s : RlpLargeStringDecoder) (es : List (Except DecodingError ByteView)) : Prop where
  fresh : s.initialized = false → s.bytesRead = 0
  position : s.bytesRead = (received es).length
  bounded : s.bytesRead ≤ s.payloadSize
  present : s.payloadSize ≤ s.bytesRead + s.view.length

theorem counts_new (data : ByteView) : Counts (new data) [] := ⟨fun _ => rfl, rfl, le_rfl, Nat.zero_le _⟩

namespace Counts

variable {s t : RlpLargeStringDecoder} {es : List (Except DecodingError ByteView)}

theorem startString (h : Counts s es) (hfresh : s.initialized = false) :
    (∃ e, RlpLargeStringDecoder.startString s = .error e s) ∨
      ∃ t, RlpLargeStringDecoder.startString s = .ok () t ∧ t.initialized = true ∧ Counts t es := by
  unfold RlpLargeStringDecoder.startString
  rw [get_bind]
  cases (RlpDecoder.mk s.view).peekHeader with
  | error e => exact .inl ⟨e, rfl⟩
  | ok header =>
      rw [bind_of_ok (lift_ok _ _)]
      by_cases hlist : header.list = true
      · exact .inl ⟨_, rejectIf_bind_of hlist _ _ _⟩
      rw [rejectIf_bind_of_not hlist]
      by_cases hshort : s.view.length < header.headerSizeBytes + header.payloadSizeBytes
      · exact .inl ⟨_, rejectIf_bind_of hshort _ _ _⟩
      rw [rejectIf_bind_of_not hshort]
      have hzero := h.fresh hfresh
      refine .inr ⟨_, rfl, rfl, nofun, h.position, ?_, ?_⟩
      · dsimp only
        omega
      · dsimp only
        rw [List.length_drop]
        omega

theorem nextPiece (h : Counts s es) (hinit : s.initialized = true) (size : Nat) :
    ∃ chunk t, RlpLargeStringDecoder.nextPiece size s = .ok chunk t ∧ Counts t (es ++ [.ok chunk]) := by
  unfold RlpLargeStringDecoder.nextPiece
  rw [get_bind]
  split_ifs with hdone
  · exact ⟨[], s, rfl, h.fresh, by rw [received_concat, List.append_nil, h.position], h.bounded, h.present⟩
  · have hpresent := h.present
    refine ⟨_, _, rfl, fun hfresh => absurd hinit (by simp [show s.initialized = false from hfresh]), ?_, ?_, ?_⟩
    · dsimp only
      rw [received_concat, List.length_append, ← h.position, List.length_take]
      omega
    · dsimp only
      omega
    · dsimp only
      rw [List.length_drop]
      omega

theorem readChunk (h : Counts s es) (size : Nat) :
    (∃ e, RlpLargeStringDecoder.readChunk size s = .error e s) ∨
      ∃ chunk t, RlpLargeStringDecoder.readChunk size s = .ok chunk t ∧ Counts t (es ++ [.ok chunk]) := by
  unfold RlpLargeStringDecoder.readChunk
  rw [get_bind]
  split_ifs with hinit
  · exact .inr (h.nextPiece hinit size)
  · rcases h.startString (Bool.eq_false_of_not_eq_true hinit) with ⟨e, hstart⟩ | ⟨t, hstart, hopen, hcounts⟩
    · exact .inl ⟨e, bind_of_error hstart _⟩
    · rw [bind_of_ok hstart]
      exact .inr (hcounts.nextPiece hopen size)

theorem answer (h : Counts s es) (size : Nat) :
    Counts (RlpLargeStringDecoder.answer s size).1 (es ++ (RlpLargeStringDecoder.answer s size).2) := by
  unfold RlpLargeStringDecoder.answer
  rcases h.readChunk size with ⟨e, hread⟩ | ⟨chunk, t, hread, hcounts⟩
  · rw [hread]
    exact ⟨h.fresh, h.position.trans (by rw [Stateful.outcome, received_concat_error]), h.bounded, h.present⟩
  · rw [hread]
    exact hcounts

theorem run (data : ByteView) (sizes : List Nat) : Counts (after data sizes) (returned data sizes) := by
  rw [after_eq]
  exact runEffects_invariant (fun size _ _ _ h => h.answer size) (counts_new data)

end Counts

/-! ## The header -/

/-- The first read fails where `read(Bytes&)` does. -/
theorem startString_of_readBytes_error {b : ByteView} {e : DecodingError} {d : RlpDecoder}
    (h : readBytes ⟨b⟩ = .error e d) :
    startString (new b) = .error e (new b) := by
  unfold startString
  rw [get_bind, view_new]
  rcases (readBytes_eq_error_iff.mp h).1 with hpeek | ⟨header, hpeek, hlist, rfl⟩
  · rw [hpeek, bind_of_error (lift_error _ _)]
  · rw [hpeek, bind_of_ok (lift_ok _ _), rejectIf_bind_of hlist]

theorem readChunk_of_readBytes_error {b : ByteView} {e : DecodingError} {d : RlpDecoder}
    (h : readBytes ⟨b⟩ = .error e d) (size : Nat) :
    readChunk size (new b) = .error e (new b) :=
  bind_of_error (startString_of_readBytes_error h) fun _ => nextPiece size

/-- The size that is announced is the one of the string that `read(Bytes&)` returns. -/
theorem peekPayloadSize_new (b : ByteView) : peekPayloadSize (new b) =
    (Stateful.outcome (readBytes ⟨b⟩)).map List.length := by
  unfold peekPayloadSize
  rw [view_new]
  cases hread : readBytes ⟨b⟩ with
  | ok s d =>
      obtain ⟨header, w, hc, hlist, hsize, -, -, hlen, -⟩ := exists_header_of_readBytes hread
      rw [peekHeader_eq_ok_iff.mpr ⟨w, hc⟩, Outcome.ok_bind, Outcome.rejectIf_bind_of_not (by simp [hlist]), hsize,
        Outcome.rejectIf_bind_of_not hlen]
      rfl
  | error e d =>
      rcases (readBytes_eq_error_iff.mp hread).1 with hpeek | ⟨header, hpeek, hlist, rfl⟩
      · rw [hpeek]
        rfl
      · rw [hpeek, Outcome.ok_bind, Outcome.rejectIf_bind_of hlist]
        rfl

/-! ## The pieces -/

theorem answer_readingString (s r : Bytes) {k : Nat} (hk : k ≤ s.length) (size : Nat) :
    answer (readingString s r k) size = (readingString s r (min s.length (k + size)),
      [.ok ((s.drop k).take size)]) := by
  unfold answer
  rw [readChunk_readingString s r hk]
  rfl

theorem pieces_readingString (s r : Bytes) {k : Nat} (hk : k ≤ s.length) {limits : Stream' Nat}
    (hpos : ∀ i, 0 < limits.get i) :
    ∃ chunks : List ByteView,
      (runEffects answer (readingString s r k) (limits.take (chunks.length + 1))).2 = chunks.map .ok ++ [.ok []] ∧
        [] ∉ chunks ∧
      List.Forall₂ (fun chunk limit => chunk.length ≤ limit) chunks (limits.take chunks.length) ∧
        chunks.flatten = s.drop k := by
  -- each piece takes a byte at least
  induction hn : s.length - k using Nat.strong_induction_on generalizing k limits with
  | _ n ih =>
      rcases hk.eq_or_lt with rfl | hlt
      · refine ⟨[], ?_, List.not_mem_nil, .nil, List.drop_length.symm⟩
        rw [List.length_nil, Stream'.take_succ, Stream'.take_zero, runEffects_singleton,
          answer_readingString s r le_rfl,
          List.drop_length, List.take_nil]
        rfl
      · have hhead : 0 < limits.head := hpos 0
        have htail : ∀ i, 0 < limits.tail.get i := fun i => hpos (i + 1)
        obtain ⟨chunks, hreturned, hnonempty, hlimits, hflatten⟩ :=
          ih (s.length - min s.length (k + limits.head)) (by omega) (min_le_left _ _) htail rfl
        refine ⟨(s.drop k).take limits.head :: chunks, ?_, ?_, ?_, ?_⟩
        · rw [List.length_cons, Stream'.take_succ, runEffects_cons, answer_readingString s r hk, hreturned]
          rfl
        · rw [List.mem_cons, not_or]
          refine ⟨fun hempty => ?_, hnonempty⟩
          have hlength := congrArg List.length hempty
          rw [List.length_nil, List.length_take, List.length_drop] at hlength
          omega
        · rw [List.length_cons, Stream'.take_succ]
          exact .cons (List.length_take_le _ _) hlimits
        · have hrest : s.drop (min s.length (k + limits.head)) = (s.drop k).drop limits.head := by
            rw [List.drop_drop]
            rcases le_total s.length (k + limits.head) with hle | hle
            · rw [min_eq_left hle, List.drop_length, List.drop_eq_nil_of_le hle]
            · rw [min_eq_right hle]
          rw [List.flatten_cons, hflatten, hrest, List.take_append_drop]

/-- **Reading a string in pieces.** When `read(Bytes&)` returns a string, reads with any positive limits return it in
pieces, none longer than its limit, up to the first empty view. The first read fails exactly when `read(Bytes&)` fails,
with the same error. After any number of reads the position is the length of what was returned, and at most the size of
the string. -/
theorem streamed_string_agrees (b : ByteView) (limits : Stream' Nat) (hpos : ∀ i, 0 < limits.get i) :
    (∀ s, Stateful.outcome (readBytes ⟨b⟩) = .ok s → ∃ chunks : List ByteView,
        returned b (limits.take (chunks.length + 1)) = chunks.map .ok ++ [.ok []] ∧ [] ∉ chunks ∧
        List.Forall₂ (fun chunk limit => chunk.length ≤ limit) chunks (limits.take chunks.length) ∧
        chunks.flatten = s) ∧
      (∀ e, Stateful.outcome (readChunk limits.head (new b)) = .error e ↔ Stateful.outcome (readBytes ⟨b⟩) = .error e) ∧
      ∀ n, (after b (limits.take n)).currentPosition = (received (returned b (limits.take n))).length ∧
        (after b (limits.take n)).currentPosition ≤ (after b (limits.take n)).totalSize := by
  have hstring {s : Bytes} {d : RlpDecoder} (hread : readBytes ⟨b⟩ = .ok s d) (size : Nat) :
      readChunk size (new b) = readChunk size (readingString s d.view 0) := by
    obtain ⟨hs, rfl⟩ := readBytes_eq_ok_iff.mp hread
    exact readChunk_new hs d.view size
  refine ⟨?_, ?_, ?_⟩
  · intro s hs
    obtain ⟨d, hread⟩ := outcome_eq_ok.mp hs
    obtain ⟨chunks, hreturned, hpieces⟩ := pieces_readingString s d.view (Nat.zero_le _) hpos
    have hfirst (size : Nat) : answer (new b) size = answer (readingString s d.view 0) size := by
      unfold answer
      rw [hstring hread size]
    refine ⟨chunks, ?_, hpieces⟩
    rw [← hreturned, returned, Stream'.take_succ, runEffects_cons, runEffects_cons, hfirst]
  · intro e
    cases hread : readBytes ⟨b⟩ with
    | ok s d =>
        rw [hstring hread, readChunk_readingString s d.view (Nat.zero_le _)]
        simp [Stateful.outcome]
    | error e' d =>
        rw [readChunk_of_readBytes_error hread]
        simp [Stateful.outcome]
  · intro n
    have hcounts := Counts.run b (limits.take n)
    exact ⟨hcounts.position, hcounts.bounded⟩

/-- A string of three bytes, two at a time. -/
theorem streamed_in_twos : ∃ chunks : List ByteView,
    returned [0x83, 1, 2, 3, 9] ((Stream'.const 2).take (chunks.length + 1)) = chunks.map .ok ++ [.ok []] ∧
      chunks.flatten = [1, 2, 3] := by
  obtain ⟨chunks, hreturned, -, -, hflatten⟩ :=
    (streamed_string_agrees [0x83, 1, 2, 3, 9] (Stream'.const 2) (fun _ => Nat.two_pos)).1 [1, 2, 3] (by decide +kernel)
  exact ⟨chunks, hreturned, hflatten⟩

example : returned [0x83, 1, 2, 3, 9] [2, 2, 2] = [.ok [1, 2], .ok [3], .ok []] := by decide +kernel

end RlpLargeStringDecoder

end DevP2P.Rlp
