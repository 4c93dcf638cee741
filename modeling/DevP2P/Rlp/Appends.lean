import DevP2P.Rlp.Integral

/-!
# Calls that append

* `Appends x p` : whatever is in the buffer, `x` succeeds and appends `p`; the rules follow the calls of the
  encoder (`Appends.bytes`, `Appends.fixed`, `Appends.uint`, `Appends.raw`, `Appends.list`) and their sequences
  (`Appends.seq`);
* `Emits x p` : if `x` succeeds and appends less than `kSizeModulus` bytes, they are `p`; the same rules, with no
  condition on sizes;
* `encodeListOf` : a list in an encoder of its own, `encodeListOf_run`;
* `length_encodeString_le`, `length_encodeList_le` : a header takes at most nine bytes.
-/

namespace DevP2P.Rlp
open DevP2P.Lib Stateful

/-- Whatever is in the buffer, `x` succeeds and appends `p`. -/
def Appends (x : EncodeM Unit) (p : Bytes) : Prop :=
  ∀ buf starts, x ⟨buf, starts⟩ = .ok () ⟨buf ++ p, starts⟩

/-- `BeginList`, the calls for the payload, `EndList`. -/
def nestedList (body : EncodeM Unit) : EncodeM Unit := do
  beginList
  body
  endList

def encodeListOf (body : EncodeM Unit) : EncodeM Bytes := do
  nestedList body
  moveBytes

namespace Appends

variable {x y : EncodeM Unit} {p q : Bytes}

theorem seq (hx : Appends x p) (hy : Appends y q) : Appends (do x; y) (p ++ q) := by
  intro buf starts
  rw [bind_of_ok (hx buf starts), hy, List.append_assoc]

theorem withError (hx : Appends x p) (e : EncodingError) : Appends (withError e x) p := by
  intro buf starts
  rw [withError_eq_ok, hx]

theorem each {α : Type} {call : α → EncodeM Unit} {f : α → Bytes} (as : List α) (h : ∀ a ∈ as, Appends (call a) (f a)) :
    Appends (as.forM call) (as.flatMap f) := by
  induction as with
  | nil =>
      intro buf starts
      rw [List.flatMap_nil, List.append_nil]
      rfl
  | cons a as ih =>
      rw [List.flatMap_cons]
      exact (h a List.mem_cons_self).seq (ih fun b hb => h b (List.mem_cons_of_mem a hb))

theorem bytes {s : Bytes} (h : s.length < kSizeModulus) : Appends (addBytes s) (encodeString s) :=
  addBytes_run h

theorem fixed {n : Nat} (a : FixedBytes n) (h : n < kSizeModulus) : Appends (addBytes a.bytes) (encodeString a.bytes) :=
  bytes (by rwa [a.size_eq])

theorem uint {T : UIntTy} (n : T.Val) : Appends (addUInt n) (encodeString (beBytes n.toNat)) := by
  intro buf starts
  rw [addUInt_run, toBigCompact_eq]

theorem bool (b : Bool) : Appends (addBool b) (encodeString (beBytes b.toNat)) := by
  intro buf starts
  cases b <;> rfl

theorem raw {b : Bytes} (h : b ≠ []) : Appends (addRaw b) b := by
  intro buf starts
  unfold addRaw
  rw [rejectIf_bind_of_not (by simpa using h)]
  rfl

theorem list (hx : Appends x p) (hp : p.length < kSizeModulus) : Appends (nestedList x) (encodeList p) := by
  intro buf starts
  unfold nestedList
  rw [bind_of_ok (beginList_run buf starts), bind_of_ok (hx _ _)]
  exact endList_run hp buf starts

end Appends

/-- If `x` succeeds, it appends something, and this is `p` unless it is too long for a `size_t`. -/
def Emits (x : EncodeM Unit) (p : Bytes) : Prop :=
  ∀ buf starts e, x ⟨buf, starts⟩ = .ok () e → ∃ q : Bytes, e = ⟨buf ++ q, starts⟩ ∧ (q.length < kSizeModulus → q = p)

namespace Emits

variable {x y : EncodeM Unit} {p q : Bytes}

theorem ofAppends (hx : Appends x p) : Emits x p := by
  intro buf starts e h
  rw [hx] at h
  cases h
  exact ⟨p, rfl, fun _ => rfl⟩

theorem seq (hx : Emits x p) (hy : Emits y q) : Emits (do x; y) (p ++ q) := by
  intro buf starts e h
  obtain ⟨⟨⟩, t, hfirst, hsecond⟩ := bind_eq_ok.mp h
  obtain ⟨p', rfl, hp⟩ := hx buf starts t hfirst
  obtain ⟨q', rfl, hq⟩ := hy _ _ e hsecond
  refine ⟨p' ++ q', by rw [List.append_assoc], fun hlt => ?_⟩
  rw [List.length_append] at hlt
  rw [hp (by omega), hq (by omega)]

theorem withError (hx : Emits x p) (err : EncodingError) : Emits (withError err x) p :=
  fun buf starts e h => hx buf starts e (withError_eq_ok.mp h)

theorem bytes (s : Bytes) : Emits (addBytes s) (encodeString s) := by
  intro buf starts e h
  by_cases hs : s.length < kSizeModulus
  · rw [addBytes_run hs] at h
    cases h
    exact ⟨_, rfl, fun _ => rfl⟩
  · unfold addBytes at h
    have hsingle : ¬ (s.length = 1 ∧ (Bytes.at s 0).toNat < kRlpSingleByteThreshold) := by
      rintro ⟨h1, -⟩
      exact hs (h1 ▸ by decide)
    rw [if_neg hsingle] at h
    obtain ⟨header, t, hheader, happend⟩ := bind_eq_ok.mp h
    obtain ⟨-, rfl⟩ := lift_eq_ok.mp hheader
    cases happend
    refine ⟨header ++ s, rfl, fun hlt => ?_⟩
    rw [List.length_append] at hlt
    omega

end Emits

/-- At any length, `EndList` puts a header in front of what was written since the matching `BeginList`. -/
theorem endList_eq_ok {buf payload : Bytes} {starts : List Nat} {e : RlpEncoder}
    (h : endList ⟨buf ++ payload, starts ++ [buf.length]⟩ = .ok () e) :
    ∃ header, e = ⟨buf ++ (header ++ payload), starts⟩ ∧
      (payload.length < kSizeModulus → header = headerBytes true payload.length) := by
  by_cases hp : payload.length < kSizeModulus
  · rw [endList_run hp] at h
    cases h
    exact ⟨_, rfl, fun _ => rfl⟩
  · unfold endList at h
    rw [get_bind] at h
    simp only [List.getLast?_concat, List.dropLast_concat, List.length_append, Nat.add_sub_cancel_left] at h
    rw [set_bind] at h
    obtain ⟨header, t, hheader, hinsert⟩ := bind_eq_ok.mp h
    obtain ⟨-, rfl⟩ := lift_eq_ok.mp hheader
    simp only [modify_apply, List.take_left, List.drop_left, List.append_assoc] at hinsert
    cases hinsert
    exact ⟨header, rfl, fun hlt => absurd hlt hp⟩

theorem Emits.endList {buf payload p : Bytes} {starts : List Nat} {e : RlpEncoder}
    (hp : payload.length < kSizeModulus → payload = p)
    (h : Rlp.endList ⟨buf ++ payload, starts ++ [buf.length]⟩ = .ok () e) :
    ∃ q : Bytes, e = ⟨buf ++ q, starts⟩ ∧ (q.length < kSizeModulus → q = encodeList p) := by
  obtain ⟨header, rfl, hheader⟩ := endList_eq_ok h
  refine ⟨header ++ payload, rfl, fun hlt => ?_⟩
  rw [List.length_append] at hlt
  have hpayload : payload.length < kSizeModulus := by omega
  obtain rfl := hp hpayload
  rw [hheader hpayload]
  rfl

theorem encodeListOf_run {x : EncodeM Unit} {p : Bytes} (hx : Appends x p) (hp : p.length < kSizeModulus) :
    encodeListOf x RlpEncoder.new = .ok (encodeList p) RlpEncoder.new := by
  unfold encodeListOf RlpEncoder.new
  rw [bind_of_ok (hx.list hp [] [])]
  rfl

theorem length_headerBytes_le {n : Nat} (h : n < kSizeModulus) (list : Bool) : (headerBytes list n).length ≤ 9 := by
  have h8 := byteLength_le_eight h
  rcases Nat.lt_or_ge n 56 with hn | hn
  · rw [length_headerBytes_of_lt hn]
    omega
  · rw [length_headerBytes_of_ge hn]
    omega

theorem length_encodeString_le {s : Bytes} (h : s.length < kSizeModulus) :
    (encodeString s).length ≤ s.length + 9 := by
  by_cases hs : s.length = 1 ∧ (Bytes.at s 0).toNat < 128
  · rw [encodeString_of_single hs]
    omega
  · have := length_headerBytes_le h false
    rw [encodeString_of_not_single hs, List.length_append]
    omega

theorem length_encodeList_le {p : Bytes} (h : p.length < kSizeModulus) :
    (encodeList p).length ≤ p.length + 9 := by
  have := length_headerBytes_le h true
  rw [encodeList, List.length_append]
  omega

end DevP2P.Rlp
