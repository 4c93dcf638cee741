import DevP2P.Rlp.Decoder
import DevP2P.Rlp.Encoder

/-!
# The decoder accepts exactly what the encoder emits

* `Adds s e` : `add(ByteView)` on `s` appends `e`; `InsertsHeader n hdr` : `EndList` inserts `hdr` in
  front of a payload of `n` bytes;
* `decoder_accepts_iff_encoder_emits` : on every input, `read(Bytes&)` and `ReadListHeaderBytes`
  accept these bytes and nothing else.
-/

namespace DevP2P.Rlp
open DevP2P.Lib

/-- The bytes `add(ByteView)` appends to an empty buffer. -/
def Adds (s e : Bytes) : Prop := addBytes s RlpEncoder.new = .ok () ⟨e, []⟩

/-- The header `EndList` inserts for a payload of `n` bytes, whatever stands before the list and
whatever other lists are open. -/
def InsertsHeader (n : Nat) (hdr : Bytes) : Prop :=
  ∀ (buf payload : Bytes) (starts : List Nat), payload.length = n →
    endList ⟨buf ++ payload, starts ++ [buf.length]⟩ = .ok () ⟨buf ++ (hdr ++ payload), starts⟩

theorem adds_iff {s : Bytes} (hs : s.length < kSizeModulus) (e : Bytes) :
    Adds s e ↔ e = encodeString s := by
  unfold Adds RlpEncoder.new
  rw [addBytes_run hs]
  simp [eq_comm]

theorem insertsHeader_iff {n : Nat} (hn : n < kSizeModulus) (hdr : Bytes) :
    InsertsHeader n hdr ↔ hdr = headerBytes true n := by
  constructor
  · intro h
    have hp : (List.replicate n (0 : UInt8)).length = n := List.length_replicate
    have hrun := h [] (List.replicate n 0) [] hp
    rw [endList_run (by rwa [hp]), hp] at hrun
    simpa [eq_comm] using hrun
  · rintro rfl buf payload starts rfl
    exact endList_run hn buf starts

/-- The string itself is the end of what `add(ByteView)` appends, at any length. -/
theorem length_le_of_adds {s e : Bytes} (h : Adds s e) : s.length ≤ e.length := by
  unfold Adds addBytes RlpEncoder.new at h
  split_ifs at h with h1
  · obtain ⟨x, rfl⟩ := List.length_eq_one_iff.mp h1.1
    rw [appendBuffer_run] at h
    simp only [EStateM.Result.ok.injEq, RlpEncoder.mk.injEq] at h
    simp [← h.2.1]
  · obtain ⟨header, d, hh, h⟩ := Stateful.bind_eq_ok.mp h
    obtain ⟨-, rfl⟩ := Stateful.lift_eq_ok.mp hh
    rw [appendBuffer_run] at h
    simp only [EStateM.Result.ok.injEq, RlpEncoder.mk.injEq] at h
    simp [← h.2.1]

/-- **The decoder accepts exactly the items the encoder emits.** -/
theorem decoder_accepts_iff_encoder_emits (b : Bytes) (hb : b.length < 2 ^ 64) :
    (∀ s r : Bytes, readBytes ⟨b⟩ = .ok s ⟨r⟩ ↔ ∃ e, Adds s e ∧ b = e ++ r) ∧
    (∀ (n : Nat) (r : Bytes), readListHeaderBytes ⟨b⟩ = .ok n ⟨r⟩ ↔
      n ≤ r.length ∧ ∃ hdr, InsertsHeader n hdr ∧ b = hdr ++ r) := by
  constructor
  · intro s r
    rw [readBytes_eq_ok_iff]
    constructor
    · rintro ⟨hs, hv⟩
      exact ⟨encodeString s, (adds_iff hs _).mpr rfl, hv⟩
    · rintro ⟨e, he, rfl⟩
      have hs : s.length < kSizeModulus := by
        refine lt_of_le_of_lt ((length_le_of_adds he).trans ?_) hb
        simp
      exact ⟨hs, by rw [(adds_iff hs e).mp he]⟩
  · intro n r
    rw [readListHeaderBytes_eq_ok_iff]
    constructor
    · rintro ⟨hn, hle, hv⟩
      exact ⟨hle, headerBytes true n, (insertsHeader_iff hn _).mpr rfl, hv⟩
    · rintro ⟨hle, hdr, hh, rfl⟩
      have hn : n < kSizeModulus := by
        refine lt_of_le_of_lt (hle.trans ?_) hb
        simp
      exact ⟨hn, hle, by rw [(insertsHeader_iff hn hdr).mp hh]⟩

/-- The item `"dog"` with one byte behind it. -/
theorem decoder_accepts_dog :
    ∃ e, Adds [0x64, 0x6f, 0x67] e ∧ [0x83, 0x64, 0x6f, 0x67, 0x00] = e ++ [0x00] :=
  ((decoder_accepts_iff_encoder_emits [0x83, 0x64, 0x6f, 0x67, 0x00] (by decide)).1
    [0x64, 0x6f, 0x67] [0x00]).mp (by decide)

end DevP2P.Rlp
