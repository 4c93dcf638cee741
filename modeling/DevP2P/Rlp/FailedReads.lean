import DevP2P.Rlp.ViewReads

/-!
# Failed reads (`rlp/rlp_decoder.hpp`, `rlp/rlp_decoder.cpp`)

The operations of `RlpDecoder` peek at the header of the next item and make their checks before they consume the item,
so that an item that is refused is still there. `read_vector` consumes the header of the list before it reads the
elements.

* `ReadOp`, `ReadOp.apply` : the operations that consume;
* `FailsInPlace` for each operation on one item;
* `failed_reads_keep_input_iff` : which failures leave the input as it was.
-/

namespace DevP2P.Rlp
open DevP2P.Lib Stateful

/-- The operations of `RlpDecoder` that consume. -/
inductive ReadOp
  | bytes
  | scalar (T : ScalarTy)
  | array (n : Nat)
  | listHeader
  | skip
  | vector (T : ScalarTy)

abbrev ReadOp.Out : ReadOp → Type
  | .bytes => Bytes
  | .scalar T => T.Val
  | .array n => FixedBytes n
  | .listHeader => Nat
  | .skip => Unit
  | .vector T => List T.Val

def ReadOp.apply : (op : ReadOp) → DecodeM op.Out
  | .bytes => readBytes
  | .scalar T => readAs T
  | .array n => readArray n
  | .listHeader => readListHeaderBytes
  | .skip => skipItem
  | .vector T => readVector T

/-- If the operation fails on the bytes `b`, they all remain. -/
def FailedReadKeeps (op : ReadOp) (b : ByteView) : Prop :=
  ∀ e d, op.apply ⟨b⟩ = .error e d → d.remaining = b

/-! ## One item -/

section

variable (b : ByteView)

theorem readBytes_failsInPlace : FailsInPlace readBytes ⟨b⟩ := by
  intro e d herr
  exact (readBytes_eq_error_iff.mp herr).2.symm

theorem readListHeaderBytes_failsInPlace : FailsInPlace readListHeaderBytes ⟨b⟩ := by
  refine .get_bind (.lift_bind fun h hpeek => .rejectIf_bind fun _ => ?_)
  obtain ⟨w, hc⟩ := peekHeader_eq_ok_iff.mp hpeek
  exact .of_ok (bind_of_ok (skipHeaderInternal_run hc) _)

theorem skipItem_failsInPlace : FailsInPlace skipItem ⟨b⟩ := by
  refine .get_bind (.lift_bind fun h hpeek => ?_)
  obtain ⟨w, hc⟩ := peekHeader_eq_ok_iff.mp hpeek
  apply FailsInPlace.of_ok
  rw [bind_of_ok (skipHeaderInternal_run hc), get_bind, rejectIf_bind_of_not (not_lt.mpr hc.payload_le),
    dropFront_apply]

theorem readArray_failsInPlace (n : Nat) : FailsInPlace (readArray n) ⟨b⟩ := by
  refine .get_bind (.lift_bind fun h hpeek => .rejectIf_bind fun _ => .rejectIf_bind fun hn => ?_)
  obtain ⟨w, hc⟩ := peekHeader_eq_ok_iff.mp hpeek
  -- the header announced the size of the array
  have hle : n ≤ w.length := arraySize_eq hn ▸ hc.payload_le
  apply FailsInPlace.of_ok
  rw [bind_of_ok (skipHeaderInternal_run hc), get_bind, rejectIf_bind_of_not (not_lt.mpr hle),
    bind_of_ok (dropFront_apply _ _),
    pure_apply]

theorem readIntegral_failsInPlace (T : UIntTy) : FailsInPlace (readIntegral T) ⟨b⟩ := by
  refine .get_bind (.lift_bind fun h _ => .rejectIf_bind fun _ => .rejectIf_bind fun _ => .rejectIf_bind fun _ =>
    .rejectIf_bind fun _ => .rejectIf_bind fun _ => .lift_bind fun out _ => ?_)
  exact .of_ok (bind_of_ok (dropFront_apply _ _) _)

theorem readUint256_failsInPlace : FailsInPlace readUint256 ⟨b⟩ := by
  refine .get_bind (.lift_bind fun h _ => .rejectIf_bind fun _ => .rejectIf_bind fun _ => .rejectIf_bind fun _ =>
    .lift_bind fun out _ => .rejectIf_bind fun _ => .rejectIf_bind fun _ => ?_)
  exact .of_ok (bind_of_ok (dropFront_apply _ _) _)

theorem readBool_failsInPlace : FailsInPlace readBool ⟨b⟩ := by
  refine .get_bind (.lift_bind fun h _ => .rejectIf_bind fun _ => .rejectIf_bind fun _ => .lift_bind fun out _ => ?_)
  exact .of_ok (bind_of_ok (dropFront_apply _ _) _)

theorem readAs_failsInPlace (T : ScalarTy) : FailsInPlace (readAs T) ⟨b⟩ := by
  cases T with
  | bool => exact readBool_failsInPlace b
  | uint T =>
      cases T with
      | uint256 => exact readUint256_failsInPlace b
      | _ => exact readIntegral_failsInPlace b _

end

theorem failedReadKeeps_of_failsInPlace {op : ReadOp} {b : ByteView} (h : FailsInPlace op.apply ⟨b⟩) :
    FailedReadKeeps op b := by
  intro e d herr
  rw [h e d herr]
  rfl

/-! ## Lists -/

/-- `read_vector` keeps the input unless the list has a payload that is no sequence of elements. -/
theorem failedReadKeeps_vector_iff {T : ScalarTy} {b : ByteView} : FailedReadKeeps (.vector T) b ↔
    ∀ payload r : Bytes, payload.length < kSizeModulus → b = encodeList payload ++ r →
      ∃ vs, Concat (Element T) vs payload := by
  constructor
  · rintro hkeeps payload r hp rfl
    have hrun := readVector_encodeList T hp r
    cases hread : readElements T payload.length payload with
    | ok read =>
        obtain ⟨vs, rest⟩ := read
        exact ⟨vs, ((readElements_eq_ok_iff _ _ _ _ le_rfl).mp hread).2⟩
    | error e =>
        rw [hread] at hrun
        -- the view is behind the header
        exact absurd (List.append_cancel_right (hkeeps e _ hrun)) (ne_encodeList payload)
  · intro hpayload e d herr
    rcases bind_eq_error.mp herr with hheader | ⟨n, ⟨w⟩, hheader, -⟩
    · rw [readListHeaderBytes_failsInPlace b e d hheader]
      rfl
    · obtain ⟨h, hc, hl, -⟩ := readListHeaderBytes_eq_ok_iff_header.mp hheader
      obtain ⟨hp, hb⟩ := eq_encodeList_of_canonicalHeader hc hl
      obtain ⟨vs, hvs⟩ := hpayload _ _ hp hb
      have hread := (readElements_eq_ok_iff _ _ _ _ le_rfl).mpr ⟨rfl, hvs⟩
      have hrun := readVector_encodeList T hp (w.drop h.payloadSizeBytes)
      rw [hread, ← hb] at hrun
      cases hrun.symm.trans herr

/-- **Failed reads keep the input, but for elements of a list.** If an operation of the decoder fails, the bytes that
remain are those before the call; `read_vector` gives them up exactly where `b` starts with a list whose payload is no
sequence of elements. -/
theorem failed_reads_keep_input_iff (op : ReadOp) (b : ByteView) : FailedReadKeeps op b ↔
    ∀ T, op = .vector T → ∀ payload r : Bytes, payload.length < kSizeModulus → b = encodeList payload ++ r →
      ∃ vs, Concat (Element T) vs payload := by
  cases op with
  | vector T =>
      rw [failedReadKeeps_vector_iff]
      constructor
      · rintro hpayload T' ⟨⟩
        exact hpayload
      · intro hpayload
        exact hpayload T rfl
  | bytes => exact iff_of_true (failedReadKeeps_of_failsInPlace (readBytes_failsInPlace b)) nofun
  | scalar T => exact iff_of_true (failedReadKeeps_of_failsInPlace (readAs_failsInPlace b T)) nofun
  | array n => exact iff_of_true (failedReadKeeps_of_failsInPlace (readArray_failsInPlace b n)) nofun
  | listHeader => exact iff_of_true (failedReadKeeps_of_failsInPlace (readListHeaderBytes_failsInPlace b)) nofun
  | skip => exact iff_of_true (failedReadKeeps_of_failsInPlace (skipItem_failsInPlace b)) nofun

/-- A list inside a list of numbers is refused, and the header of the outer list is gone. -/
theorem failed_vector_consumes_header :
    ReadOp.apply (.vector (.uint .uint8)) ⟨[0xC1, 0xC0]⟩ = .error .kUnexpectedList ⟨[0xC0]⟩ ∧
      ¬ FailedReadKeeps (.vector (.uint .uint8)) [0xC1, 0xC0] := by
  have hrun : ReadOp.apply (.vector (.uint .uint8)) ⟨[0xC1, 0xC0]⟩ = .error .kUnexpectedList ⟨[0xC0]⟩ := by
    decide +kernel
  refine ⟨hrun, fun hkeeps => ?_⟩
  exact absurd (hkeeps _ _ hrun) (by decide)

end DevP2P.Rlp
