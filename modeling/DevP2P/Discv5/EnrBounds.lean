import DevP2P.Discv5.EnrDecode
import DevP2P.Rlp.Appends

/-!
# The length of the signed content

`decode_rlp` reads the signature from all the bytes behind the list header, and subtracts the bytes it took from the
length that the header declares.

* `readSignature` : `decode_rlp` up to this subtraction; `contentElementsLen` : the subtraction;
* `readSignature_eq_ok_iff` : where it gets there;
* `content_inside_iff` : the content lies inside the record exactly if the list is not shorter than its first element.
-/

namespace DevP2P.Discv5.EnrParser
open DevP2P.Lib DevP2P.Rlp Stateful

variable {env : EnrPrimitives}

/-- `decode_rlp` up to `content_elements_len`: the declared length of the list, the bytes that the signature element
took, and the signature. -/
def readSignature : EStateM EnrFault RlpDecoder (Nat × Nat × Bytes) := do
  let listPayloadLen ← enterList (.error .kEnrRlpDecodeFailed)
  let afterListHeader ← get
  let sigBytes ← withError (.error .kEnrRlpDecodeFailed) readBytes
  rejectIf (sigBytes.length ≠ kEnrSigBytes) (.error .kEnrSignatureWrongSize)
  let afterSig ← get
  return (listPayloadLen, afterListHeader.view.length - afterSig.view.length, sigBytes)

/-- `list_payload_len - sig_consumed`, in `size_t`. -/
def contentElementsLen (listPayloadLen sigConsumed : Nat) : Nat :=
  (listPayloadLen + (kSizeModulus - sigConsumed)) % kSizeModulus

/-- Wherever the length of the content is computed, the signature element is inside the list and the content is inside
the record. -/
def ContentInside (raw : Bytes) : Prop :=
  ∀ listPayloadLen sigConsumed sigBytes rest,
    readSignature ⟨raw⟩ = .ok (listPayloadLen, sigConsumed, sigBytes) ⟨rest⟩ →
      sigConsumed ≤ listPayloadLen ∧ contentElementsLen listPayloadLen sigConsumed ≤ rest.length

theorem readSignature_eq_ok_iff {raw rest sig : Bytes} {n consumed : Nat} :
    readSignature ⟨raw⟩ = .ok (n, consumed, sig) ⟨rest⟩ ↔
      n < kSizeModulus ∧ n ≤ (encodeString sig ++ rest).length ∧ sig.length = kEnrSigBytes ∧
        consumed = (encodeString sig).length ∧ raw = headerBytes true n ++ (encodeString sig ++ rest) := by
  unfold readSignature
  refine ⟨?_, ?_⟩
  · intro hrun
    obtain ⟨n', ⟨v⟩, henter, hafter⟩ := bind_eq_ok.mp hrun
    obtain ⟨hn, hle, hraw⟩ := enterList_eq_ok_iff.mp henter
    rw [get_bind] at hafter
    obtain ⟨sig', ⟨w⟩, hread, hcheck⟩ := bind_eq_ok.mp hafter
    obtain ⟨-, hv⟩ := readBytes_eq_ok_iff.mp (withError_eq_ok.mp hread)
    obtain ⟨hsize, hend⟩ := rejectIf_bind_eq_ok.mp hcheck
    rw [get_bind] at hend
    obtain ⟨hvalue, hstate⟩ := pure_eq_ok.mp hend
    simp only [Prod.mk.injEq, RlpDecoder.mk.injEq] at hvalue hstate
    obtain ⟨rfl, rfl, rfl⟩ := hvalue
    subst hstate hv
    exact ⟨hn, hle, not_not.mp hsize, by simp, hraw⟩
  · intro ⟨hn, hle, hsize, hconsumed, hraw⟩
    have hread : withError (.error .kEnrRlpDecodeFailed : EnrFault) readBytes ⟨encodeString sig ++ rest⟩ =
        .ok sig ⟨rest⟩ :=
      withError_eq_ok.mpr (readBytes_eq_ok_iff.mpr ⟨by rw [hsize]; decide, rfl⟩)
    rw [bind_of_ok (enterList_eq_ok_iff.mpr ⟨hn, hle, hraw⟩), get_bind, bind_of_ok hread,
      rejectIf_bind_of_not (by simpa using hsize), get_bind, hconsumed]
    simp

/-- The list is not shorter than its first element, if this is a string of the size of a signature. -/
def HoldsSignature (raw : Bytes) : Prop :=
  ∀ n sig rest, raw = headerBytes true n ++ (encodeString sig ++ rest) → sig.length = kEnrSigBytes →
    (encodeString sig).length ≤ n

theorem contentElementsLen_eq {n consumed : Nat} (hn : n < kSizeModulus) (h : consumed ≤ n) :
    contentElementsLen n consumed = n - consumed := by
  unfold contentElementsLen
  rw [show n + (kSizeModulus - consumed) = n - consumed + kSizeModulus by omega, Nat.add_mod_right,
    Nat.mod_eq_of_lt (by omega)]

theorem content_inside_of_holdsSignature {raw : Bytes} (h : HoldsSignature raw) : ContentInside raw := by
  intro n consumed sig rest hrun
  obtain ⟨hn, hle, hsize, rfl, hraw⟩ := readSignature_eq_ok_iff.mp hrun
  have hlist := h n sig rest hraw hsize
  rw [contentElementsLen_eq hn hlist]
  rw [List.length_append] at hle
  omega

theorem holdsSignature_of_content_inside {raw : Bytes} (h : ContentInside raw) : HoldsSignature raw := by
  intro n sig rest hraw hsize
  by_contra hlt
  rw [not_le] at hlt
  have hlen := length_encodeString_le (show sig.length < kSizeModulus by rw [hsize]; decide)
  have hbound : kEnrSigBytes + 9 < kSizeModulus := by decide
  have hrun := readSignature_eq_ok_iff.mpr
    ⟨by omega, by rw [List.length_append]; omega, hsize, rfl, hraw⟩
  exact absurd (h _ _ _ _ hrun).1 (not_le.mpr hlt)

theorem reports_enterList (e : Discv5Error) : Stateful.Reports (enterList (.error e : EnrFault)) :=
  .bind .get fun _ => .bind (.rejectIf _ _) fun _ => .withError _ _

/-- `decode_rlp` reads outside the record only where the content is not inside it. -/
theorem decodeRlp_ne_outOfBounds {raw : Bytes} (h : ContentInside raw) : decodeRlp env raw ≠ .error .outOfBounds := by
  intro hfail
  obtain ⟨t, hfail⟩ := outcome_eq_error.mp hfail
  unfold decodeRlpSteps at hfail
  rcases bind_eq_error.mp hfail with henter | ⟨n, d, henter, hafter⟩
  · exact reports_enterList _ _ _ henter
  rw [get_bind] at hafter
  rcases bind_eq_error.mp hafter with hread | ⟨sig, ⟨rest⟩, hread, hcheck⟩
  · exact Stateful.Reports.withError _ _ _ _ hread
  by_cases hsize : sig.length = kEnrSigBytes
  · rw [rejectIf_bind_of_not (by simpa using hsize), get_bind] at hcheck
    have hrun : readSignature ⟨raw⟩ = .ok (n, d.view.length - rest.length, sig) ⟨rest⟩ := by
      unfold readSignature
      rw [bind_of_ok henter, get_bind, bind_of_ok hread,
        rejectIf_bind_of_not (by simpa using hsize)]
      rfl
    -- the content is inside the record, and what follows reports its errors
    have hinside : ¬ (n + (kSizeModulus - (d.view.length - rest.length))) % kSizeModulus > rest.length :=
      not_lt.mpr (h _ _ _ _ hrun).2
    dsimp only at hcheck
    rw [rejectIf_bind_of_not hinside] at hcheck
    refine Stateful.Reports.bind (.withError _ _) (fun content => ?_) _ _ hcheck
    refine .bind (.withError _ _) fun seq => .bind .get fun d => ?_
    exact .bind (.rejectIf _ _) fun _ => .pure _
  · rw [rejectIf_bind_of hsize] at hcheck
    cases hcheck

/-- **When the length of the content does not wrap around.** Wherever `decode_rlp` computes the length of the signed
content, the signature lies inside the list and the content inside the record, exactly if no list that is shorter than a
signature in front of it starts the record. -/
theorem content_inside_iff (env : EnrPrimitives) (raw : Bytes) :
    (ContentInside raw ∧ decodeRlp env raw ≠ .error .outOfBounds) ↔ HoldsSignature raw :=
  ⟨fun h => holdsSignature_of_content_inside h.1,
    fun h => ⟨content_inside_of_holdsSignature h, decodeRlp_ne_outOfBounds (content_inside_of_holdsSignature h)⟩⟩

/-- An empty list, then a signature of zeros. -/
def shortRecord : Bytes := 0xC0 :: 0xB8 :: 0x40 :: List.replicate 64 0

/-- The signature behind an empty list takes 66 bytes from it. -/
theorem short_list_underflows : readSignature ⟨shortRecord⟩ = .ok (0, 66, List.replicate 64 0) ⟨[]⟩ ∧
    contentElementsLen 0 66 = 2 ^ 64 - 66 ∧ ¬ ContentInside shortRecord := by
  have hrun : readSignature ⟨shortRecord⟩ = .ok (0, 66, List.replicate 64 0) ⟨[]⟩ := by decide +kernel
  refine ⟨hrun, by decide +kernel, fun h => ?_⟩
  exact absurd (h _ _ _ _ hrun).1 (by decide)

end DevP2P.Discv5.EnrParser
