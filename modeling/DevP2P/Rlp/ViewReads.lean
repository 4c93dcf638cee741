import DevP2P.Rlp.Reads

/-!
# Reads from a view (`rlp/rlp_decoder.hpp`)

`read(data, out, leftover)` reads an integer or a truth value from a view of the caller. It repeats the checks of
`read(out)`, in another order and with the helper `check_payload`; `read_vector` uses it for the elements of a list.

* `ScalarTy` : the types of `read<T>`; `readAs` : the member `read<T>`;
* `checkPayload`, `takeValue`, `readView` : the read from a view; `readVector` : a list of values;
* `readView_eq_ok_iff` : `Element T v p`, what a read from a view accepts;
* `readElements_eq_ok_iff` : the loop of `read_vector` takes the elements up to the end of the payload;
  `readVector_encodeList` : the list around it;
* `addVector` : the list of a vector; `vector_round_trip` : it reads back, and what `read_vector` accepts;
* `read_paths_agree_iff` : where the two reads of a type agree.
-/

namespace DevP2P.Rlp
open DevP2P.Lib Stateful

/-- The types of `read<T>`. -/
inductive ScalarTy
  | uint (T : UIntTy)
  | bool
deriving DecidableEq

abbrev ScalarTy.Val : ScalarTy → Type
  | .uint T => T.Val
  | .bool => Bool

instance : (T : ScalarTy) → DecidableEq T.Val
  | .uint T => inferInstanceAs (DecidableEq T.Val)
  | .bool => inferInstanceAs (DecidableEq Bool)

/-- `sizeof(T)`. -/
def ScalarTy.sizeof : ScalarTy → Nat
  | .uint T => T.sizeof
  | .bool => 1

/-- `RlpDecoder::read<T>`. -/
def readAs : (T : ScalarTy) → DecodeM T.Val
  | .uint T => readUInt T
  | .bool => readBool

inductive Leftover
  | kProhibit
  | kAllow
deriving DecidableEq

/-- `RlpDecoder::check_payload`. -/
def checkPayload (T : ScalarTy) (h : Header) (payloadView view : ByteView) : Except DecodingError Unit := do
  rejectIf h.list .kUnexpectedList
  rejectIf (h.payloadSizeBytes > 1 ∧ Bytes.at payloadView 0 = 0) .kLeadingZero
  -- the third condition is about `T{0U}`, and never holds
  rejectIf (h.payloadSizeBytes = 1 ∧ Bytes.at payloadView 0 = 0 ∧
    (0 : UInt8).toNat ≥ kRlpSingleByteThreshold) .kLeadingZero
  rejectIf (h.payloadSizeBytes > T.sizeof ∧
    if T.sizeof < 32 then h.payloadSizeBytes > T.sizeof else h.payloadSizeBytes > 32) .kOverflow
  rejectIf (view.length < h.headerSizeBytes + h.payloadSizeBytes) .kInputTooShort
  match T with
  | .bool => return ()
  | .uint T =>
    let tempOut ← fromBigCompact T payloadView
    rejectIf (h.payloadSizeBytes = 1 ∧ tempOut.toNat % 256 < kRlpSingleByteThreshold ∧
      h.headerSizeBytes > 0) .kNonCanonicalSize

/-- An item that is no truth value is skipped, and reported. -/
def rejectItem (view : ByteView) : Except DecodingError (Bool × ByteView) := do
  Stateful.outcome (skipItem ⟨view⟩)
  throw .kOverflow

/-- What `read(data, out, leftover)` does behind `check_payload`: the value, and the view behind the item. -/
def takeValue (h : Header) (payloadView view : ByteView) : (T : ScalarTy) → Except DecodingError (T.Val × ByteView)
  | .uint T => do
    let out ← fromBigCompact T payloadView
    return (out, view.drop (h.headerSizeBytes + h.payloadSizeBytes))
  | .bool =>
    if h.payloadSizeBytes = 1 then
      if Bytes.at payloadView 0 = 1 then .ok (true,
        view.drop (h.headerSizeBytes + h.payloadSizeBytes)) else rejectItem view
    else if h.payloadSizeBytes = 0 then
      if h.headerSizeBytes = 1 ∧ Bytes.at view 0 = kEmptyStringCode then .ok (false, view.drop 1) else rejectItem view
    else rejectItem view

/-- `RlpDecoder::read(data, out, leftover)`; the state is `data`. -/
def readView (T : ScalarTy) (leftover : Leftover) : EStateM DecodingError ByteView T.Val := do
  let data ← get
  let h ← Stateful.lift (RlpDecoder.mk data).peekHeader
  let payloadView := (data.drop h.headerSizeBytes).take h.payloadSizeBytes
  Stateful.lift (checkPayload T h payloadView data)
  let taken ← Stateful.lift (takeValue h payloadView data T)
  set taken.2
  rejectIf (leftover = .kProhibit ∧ taken.2 ≠ []) .kInputTooLong
  return taken.1

/-- The loop of `read_vector`, with room for `fuel` rounds: the elements, and what is left of the payload. -/
def readElements (T : ScalarTy) : Nat → ByteView → Except DecodingError (List T.Val × ByteView)
  | 0, listPayload => return ([], listPayload)
  | fuel + 1, listPayload =>
    if listPayload = [] then return ([], listPayload)
    else match readView T .kAllow listPayload with
      | .error e _ => .error e
      | .ok v rest => do
        let read ← readElements T fuel rest
        return (v :: read.1, read.2)

/-- `RlpDecoder::read_vector`; each round of the loop takes a byte at least. -/
def readVector (T : ScalarTy) : DecodeM (List T.Val) := do
  let payloadLen ← readListHeaderBytes
  let d ← get
  let listPayload := d.view.take payloadLen
  let read ← Stateful.lift (readElements T listPayload.length listPayload)
  rejectIf (read.2 ≠ []) .kListLengthMismatch
  rejectIf (d.view.length < payloadLen) .kInputTooShort
  dropFront payloadLen
  return read.1

/-! ## Reads -/

theorem readView_eq_ok_iff_header {T : ScalarTy} {b r : ByteView} {v : T.Val} :
    readView T .kAllow b = .ok v r ↔ ∃ h w, CanonicalHeader b h w ∧
      checkPayload T h (w.take h.payloadSizeBytes) b = .ok () ∧
      takeValue h (w.take h.payloadSizeBytes) b T = .ok (v, r) := by
  unfold readView
  rw [get_bind, bind_eq_ok]
  constructor
  · rintro ⟨h, d, hpeek, hok⟩
    obtain ⟨hpeek, rfl⟩ := lift_eq_ok.mp hpeek
    obtain ⟨w, hc⟩ := peekHeader_eq_ok_iff.mp hpeek
    obtain ⟨⟨⟩, d', hchecked, hbehind⟩ := bind_eq_ok.mp hok
    obtain ⟨hcheck, rfl⟩ := lift_eq_ok.mp hchecked
    obtain ⟨⟨v', r'⟩, d'', htaken, hend⟩ := bind_eq_ok.mp hbehind
    obtain ⟨htake, rfl⟩ := lift_eq_ok.mp htaken
    rw [set_bind, rejectIf_bind_of_not (by simp), pure_eq_ok] at hend
    obtain ⟨rfl, rfl⟩ := hend
    rw [hc.view_eq.1] at hcheck htake
    exact ⟨h, w, hc, hcheck, htake⟩
  · rintro ⟨h, w, hc, hcheck, htake⟩
    refine ⟨h, b, lift_eq_ok.mpr ⟨peekHeader_eq_ok_iff.mpr ⟨w, hc⟩, rfl⟩, ?_⟩
    rw [hc.view_eq.1, hcheck, bind_of_ok (lift_ok _ _), htake, bind_of_ok (lift_ok _ _),
      set_bind, rejectIf_bind_of_not (by simp), pure_apply]

theorem checkPayload_list {T : ScalarTy} {h : Header} {p b : ByteView} (hcheck : checkPayload T h p b = .ok ()) :
    h.list = false := by
  obtain ⟨hlist, -⟩ := Outcome.rejectIf_bind_eq_ok.mp hcheck
  simpa using hlist

theorem checkPayload_uint {T : UIntTy} {h : Header} {p b : ByteView} {v : T.Val} (hlist : h.list = false)
    (hsize : h.payloadSizeBytes = p.length) (hlen : ¬ b.length < h.headerSizeBytes + p.length)
    (hone : p.length = 1 → h.headerSizeBytes > 0 → 128 ≤ (Bytes.at p 0).toNat) (hv : fromBigCompact T p = .ok v) :
    checkPayload (.uint T) h p b = .ok () := by
  have hcompact := (fromBigCompact_eq_ok_iff.mp hv).1
  have hfits := length_le_of_fromBigCompact hv
  unfold checkPayload
  rw [hsize, Outcome.rejectIf_bind_of_not (by simp [hlist]),
    Outcome.rejectIf_bind_of_not (fun hz => hcompact.2 hz.1 hz.2),
    Outcome.rejectIf_bind_of_not (fun hz => absurd hz.2.2 (by decide)),
    Outcome.rejectIf_bind_of_not (fun hbig => absurd hbig.1 (not_lt.mpr hfits)), Outcome.rejectIf_bind_of_not hlen]
  show (fromBigCompact T p >>= fun tempOut => rejectIf _ _) = _
  rw [hv, Outcome.ok_bind]
  refine Outcome.rejectIf_eq_ok.mpr ?_
  rintro ⟨h1, hlt, h0⟩
  have hbyte := UInt8.toNat_lt (Bytes.at p 0)
  rw [toNat_of_fromBigCompact hv h1, Nat.mod_eq_of_lt hbyte] at hlt
  exact absurd (hone h1 h0) (not_le.mpr hlt)

/-- A read of an integer from a view is `read(Bytes&)` followed by `from_big_compact`. -/
theorem readView_uint_eq_ok_iff {T : UIntTy} {b r : ByteView} {v : T.Val} :
    readView (.uint T) .kAllow b = .ok v r ↔ ∃ p, readBytes ⟨b⟩ = .ok p ⟨r⟩ ∧ fromBigCompact T p = .ok v := by
  rw [readView_eq_ok_iff_header]
  constructor
  · rintro ⟨h, w, hc, hcheck, htake⟩
    obtain ⟨out, hout, hpair⟩ := Outcome.bind_eq_ok.mp htake
    obtain ⟨rfl, rfl⟩ := Prod.mk.inj (Outcome.pure_eq_ok.mp hpair)
    rw [hc.view_eq.2.1]
    exact ⟨_, readBytes_of_canonicalHeader hc (checkPayload_list hcheck), hout⟩
  · rintro ⟨p, hread, hv⟩
    obtain ⟨h, w, hc, hlist, hsize, hview, hdrop, hlen, hone⟩ := exists_header_of_readBytes hread
    rw [← hsize, hc.view_eq.1] at hview
    refine ⟨h, w, hc, ?_, ?_⟩
    · rw [hview]
      exact checkPayload_uint hlist hsize hlen hone hv
    · show (fromBigCompact T _ >>= fun out => pure (out, _)) = _
      rw [hview, hv, Outcome.ok_bind, hsize, hdrop]
      rfl

theorem rejectItem_ne_ok {b : ByteView} {vr : Bool × ByteView} : rejectItem b ≠ .ok vr := by
  intro hok
  obtain ⟨-, -, hthrow⟩ := Outcome.bind_eq_ok.mp hok
  cases hthrow

theorem checkPayload_bool {h : Header} {p b : ByteView} (hlist : h.list = false) (hshort : h.payloadSizeBytes ≤ 1)
    (hlen : ¬ b.length < h.headerSizeBytes + h.payloadSizeBytes) : checkPayload .bool h p b = .ok () := by
  unfold checkPayload
  rw [Outcome.rejectIf_bind_of_not (by simp [hlist]),
    Outcome.rejectIf_bind_of_not (fun hz => absurd hz.1 (not_lt.mpr hshort)),
    Outcome.rejectIf_bind_of_not (fun hz => absurd hz.2.2 (by decide)),
    Outcome.rejectIf_bind_of_not (fun hbig => absurd hbig.1 (not_lt.mpr hshort)), Outcome.rejectIf_bind_of_not hlen]
  rfl

/-- A read of a truth value from a view is `read(Bytes&)` of its shortest numeral. -/
theorem readView_bool_eq_ok_iff {b r : ByteView} {v : Bool} :
    readView .bool .kAllow b = .ok v r ↔ readBytes ⟨b⟩ = .ok (beBytes v.toNat) ⟨r⟩ := by
  have hone : beBytes 1 = [1] := by decide
  have hzero : beBytes 0 = [] := by decide
  rw [readView_eq_ok_iff_header]
  constructor
  · rintro ⟨h, w, hc, hcheck, htake⟩
    have hread := readBytes_of_canonicalHeader hc (checkPayload_list hcheck)
    obtain ⟨-, hdrop, -⟩ := hc.view_eq
    simp only [takeValue] at htake
    split_ifs at htake with h1 htrue h0 hfalse
    · -- the payload `0x01`
      obtain ⟨rfl, rfl⟩ := Prod.mk.inj (Except.ok.inj htake)
      obtain ⟨x, hx⟩ := List.length_eq_one_iff.mp (hc.length_payload.trans h1)
      rw [hx, Bytes.at_cons_zero] at htrue
      rw [hdrop, hread, hx, htrue, Bool.toNat_true, hone]
    · exact absurd htake rejectItem_ne_ok
    · -- the empty string
      obtain ⟨rfl, rfl⟩ := Prod.mk.inj (Except.ok.inj htake)
      rw [h0, hfalse.1] at hdrop
      rw [hdrop, hread, h0, List.take_zero, Bool.toNat_false, hzero]
    · exact absurd htake rejectItem_ne_ok
    · exact absurd htake rejectItem_ne_ok
  · intro hread
    obtain ⟨h, w, hc, hlist, hsize, hview, hdrop, hlen, -⟩ := exists_header_of_readBytes hread
    have hempty := header_of_readBytes_nil hread hdrop hlen
    rw [← hsize, hc.view_eq.1] at hview
    rw [← hsize] at hdrop hlen
    refine ⟨h, w, hc, checkPayload_bool hlist ?_ hlen, ?_⟩
    · rw [hsize]
      cases v <;> decide
    · rw [hview]
      simp only [takeValue]
      cases v with
      | true =>
          rw [Bool.toNat_true, hone, List.length_singleton] at hsize
          rw [Bool.toNat_true, hone, if_pos hsize, if_pos (Bytes.at_cons_zero _ _), hdrop]
      | false =>
          rw [Bool.toNat_false, hzero, List.length_nil] at hsize
          rw [Bool.toNat_false, hzero] at hempty
          obtain ⟨hheader, hfirst⟩ := hempty rfl
          rw [hheader, hsize] at hdrop
          rw [if_neg (by rw [hsize]; decide), if_pos hsize, if_pos ⟨hheader, hfirst⟩, ← hdrop]

/-- What a read from a view accepts: the shortest form of the value, or the byte `0x00` for the number zero. -/
def Element : (T : ScalarTy) → T.Val → Bytes → Prop
  | .uint _, n, p => p = encodeString (toBigCompact n) ∨ (n = 0 ∧ p = [0x00])
  | .bool, v, p => p = [if v then 0x01 else kEmptyStringCode]

theorem Element.ne_nil {T : ScalarTy} {v : T.Val} {p : Bytes} (h : Element T v p) : p ≠ [] := by
  cases T with
  | uint T =>
      rcases h with rfl | ⟨-, rfl⟩
      · exact encodeString_ne_nil _
      · exact List.cons_ne_nil _ _
  | bool =>
      rw [show p = _ from h]
      exact List.cons_ne_nil _ _

theorem readView_eq_ok_iff {T : ScalarTy} {b r : ByteView} {v : T.Val} :
    readView T .kAllow b = .ok v r ↔ ∃ p, Element T v p ∧ b = p ++ r := by
  cases T with
  | uint T =>
      rw [readView_uint_eq_ok_iff, ← readUInt_eq_ok_iff_readBytes, readUInt_eq_ok_iff]
      constructor
      · rintro (rfl | ⟨h0, rfl⟩)
        · exact ⟨_, .inl rfl, rfl⟩
        · exact ⟨_, .inr ⟨h0, rfl⟩, rfl⟩
      · rintro ⟨p, rfl | ⟨h0, rfl⟩, rfl⟩
        · exact .inl rfl
        · exact .inr ⟨h0, rfl⟩
  | bool =>
      have hitem : encodeString (beBytes v.toNat) = [if v then 0x01 else kEmptyStringCode] := by
        cases v <;> decide
      have hlen : (beBytes v.toNat).length < kSizeModulus := by
        cases v <;> decide
      rw [readView_bool_eq_ok_iff, readBytes_eq_ok_iff, hitem]
      constructor
      · rintro ⟨-, rfl⟩
        exact ⟨_, rfl, rfl⟩
      · rintro ⟨p, rfl, rfl⟩
        exact ⟨hlen, rfl⟩

/-! ## Lists of values -/

theorem readElements_eq_ok_iff {T : ScalarTy} (fuel : Nat) : ∀ (b rest : Bytes) (vs : List T.Val), b.length ≤ fuel →
    (readElements T fuel b = .ok (vs, rest) ↔ rest = [] ∧ Concat (Element T) vs b) := by
  have hstop (vs : List T.Val) (rest : Bytes) :
      (pure ([], []) : Except DecodingError (List T.Val × ByteView)) = .ok (vs, rest) ↔
        rest = [] ∧ Concat (Element T) vs [] := by
    rw [Outcome.pure_eq_ok, Prod.mk.injEq]
    constructor
    · rintro ⟨rfl, rfl⟩
      exact ⟨rfl, concat_nil.mpr rfl⟩
    · rintro ⟨rfl, hvs⟩
      exact ⟨(hvs.eq_nil fun _ _ => Element.ne_nil).symm, rfl⟩
  induction fuel with
  | zero =>
      intro b rest vs hb
      obtain rfl := List.length_eq_zero_iff.mp (Nat.le_zero.mp hb)
      exact hstop vs rest
  | succ fuel ih =>
      intro b rest vs hb
      unfold readElements
      by_cases hnil : b = []
      · subst hnil
        exact hstop vs rest
      · rw [if_neg hnil]
        constructor
        · intro hok
          cases hread : readView T .kAllow b with
          | error e d =>
              rw [hread] at hok
              cases hok
          | ok v b' =>
              rw [hread] at hok
              obtain ⟨⟨ws, rest'⟩, hws, hpair⟩ := Outcome.bind_eq_ok.mp hok
              obtain ⟨rfl, rfl⟩ := Prod.mk.inj (Outcome.pure_eq_ok.mp hpair)
              obtain ⟨p, hp, rfl⟩ := readView_eq_ok_iff.mp hread
              have hpos := List.length_pos_iff.mpr hp.ne_nil
              rw [List.length_append] at hb
              obtain ⟨hrest, hconcat⟩ := (ih b' rest' ws (by omega)).mp hws
              exact ⟨hrest, concat_cons.mpr ⟨p, b', hp, hconcat, rfl⟩⟩
        · rintro ⟨rfl, hvs⟩
          cases vs with
          | nil => exact absurd (concat_nil.mp hvs) hnil
          | cons v ws =>
              obtain ⟨p, q, hp, hws, rfl⟩ := concat_cons.mp hvs
              have hpos := List.length_pos_iff.mpr hp.ne_nil
              rw [List.length_append] at hb
              rw [readView_eq_ok_iff.mpr ⟨p, hp, rfl⟩]
              simp only [(ih q [] ws (by omega)).mpr ⟨rfl, hws⟩, Outcome.ok_bind]
              rfl

/-- `read_vector` on a list: an element that fails leaves the view behind the header of the list. -/
theorem readVector_encodeList (T : ScalarTy) {payload : Bytes} (hp : payload.length < kSizeModulus) (r : Bytes) :
    readVector T ⟨encodeList payload ++ r⟩ = match readElements T payload.length payload with
      | .ok read => .ok read.1 ⟨r⟩
      | .error e => .error e ⟨payload ++ r⟩ := by
  unfold readVector
  rw [bind_of_ok (readListHeaderBytes_encodeList_append hp r), get_bind]
  simp only [List.take_left]
  cases hread : readElements T payload.length payload with
  | error e => exact bind_of_error (lift_error _ _) _
  | ok read =>
      obtain ⟨vs, rest⟩ := read
      obtain ⟨rfl, -⟩ := (readElements_eq_ok_iff _ _ _ _ le_rfl).mp hread
      rw [bind_of_ok (lift_ok _ _), rejectIf_bind_of_not (by simp),
        rejectIf_bind_of_not (by simp), bind_of_ok (dropFront_apply _ _), List.drop_left, pure_apply]

/-! ## Vectors -/

/-- `RlpEncoder::add(vec)`. -/
def addVector (T : UIntTy) (vec : List T.Val) : EncodeM Unit := nestedList (vec.forM addUInt)

def itemsBytes {T : UIntTy} (vec : List T.Val) : Bytes := vec.flatMap fun n => encodeString (toBigCompact n)

theorem concat_itemsBytes {T : UIntTy} (vec : List T.Val) : Concat (Element (.uint T)) vec (itemsBytes vec) := by
  refine (concat_eq_iff.mpr rfl).mono ?_
  rintro v - _ rfl
  exact .inl rfl

theorem readVector_eq_ok_iff {T : ScalarTy} {b r : ByteView} {vec : List T.Val} : readVector T ⟨b⟩ = .ok vec ⟨r⟩ ↔
    ∃ p : Bytes, p.length < kSizeModulus ∧ Concat (Element T) vec p ∧ b = encodeList p ++ r := by
  constructor
  · intro hok
    obtain ⟨n, ⟨w⟩, hheader, -⟩ := bind_eq_ok.mp hok
    obtain ⟨h, hc, hl, -⟩ := readListHeaderBytes_eq_ok_iff_header.mp hheader
    obtain ⟨hp, rfl⟩ := eq_encodeList_of_canonicalHeader hc hl
    have hrun := (readVector_encodeList T hp _).symm.trans hok
    cases hread : readElements T (w.take h.payloadSizeBytes).length (w.take h.payloadSizeBytes) with
    | error e =>
        rw [hread] at hrun
        cases hrun
    | ok read =>
        obtain ⟨vs, rest⟩ := read
        rw [hread] at hrun
        cases hrun
        exact ⟨_, hp, ((readElements_eq_ok_iff _ _ _ _ le_rfl).mp hread).2, rfl⟩
  · rintro ⟨p, hp, hvec, rfl⟩
    rw [readVector_encodeList T hp, (readElements_eq_ok_iff _ _ _ _ le_rfl).mpr ⟨rfl, hvec⟩]

/-- **Vectors.** `add(vec)` writes the list of the items and `read_vector` reads the vector back, whatever follows; and
what `read_vector` accepts is a list of elements, where a zero has a second form. -/
theorem vector_round_trip (T : UIntTy) : (∀ vec : List T.Val, (itemsBytes vec).length < kSizeModulus →
      Appends (addVector T vec) (encodeList (itemsBytes vec)) ∧
        ∀ r, readVector (.uint T) ⟨encodeList (itemsBytes vec) ++ r⟩ = .ok vec ⟨r⟩) ∧
    ∀ (b r : ByteView) (vec : List T.Val), readVector (.uint T) ⟨b⟩ = .ok vec ⟨r⟩ ↔
      ∃ p : Bytes, p.length < kSizeModulus ∧ Concat (Element (.uint T)) vec p ∧ b = encodeList p ++ r := by
  refine ⟨fun vec hlen => ⟨?_, fun r => ?_⟩, fun _ _ _ => readVector_eq_ok_iff⟩
  · exact .list (.each vec fun n _ => addUInt_run n) hlen
  · exact readVector_eq_ok_iff.mpr ⟨_, hlen, concat_itemsBytes vec, rfl⟩

theorem vector_round_trip_uint16 : (itemsBytes (T := .uint16) [0, 1024]).length < kSizeModulus ∧
    addVector .uint16 [0, 1024] ⟨[], []⟩ = .ok () ⟨[0xC4, 0x80, 0x82, 0x04, 0x00], []⟩ ∧
    readVector (.uint .uint16) ⟨[0xC4, 0x80, 0x82, 0x04, 0x00, 0x05]⟩ = .ok [0, 1024] ⟨[0x05]⟩ := by
  have hbytes : encodeList (itemsBytes (T := .uint16) [0, 1024]) = [0xC4, 0x80, 0x82, 0x04, 0x00] := by decide +kernel
  have h := (vector_round_trip .uint16).1 [0, 1024] (by decide +kernel)
  rw [hbytes] at h
  exact ⟨by decide +kernel, h.1 [] [], h.2 [0x05]⟩

/-! ## The two reads of a type -/

/-- On the bytes `b`, both reads of the type succeed, with one value and the same bytes left, or both fail. -/
def ReadsAgree (T : ScalarTy) (b : ByteView) : Prop :=
  match readAs T ⟨b⟩, readView T .kAllow b with
  | .ok v d, .ok w r => v = w ∧ d.remaining = r
  | .error _ _, .error _ _ => True
  | _, _ => False

theorem readsAgree_iff {T : ScalarTy} {b : ByteView} :
    ReadsAgree T b ↔ ∀ v r, readAs T ⟨b⟩ = .ok v ⟨r⟩ ↔ readView T .kAllow b = .ok v r := by
  unfold ReadsAgree
  cases hmember : readAs T ⟨b⟩ with
  | ok v d =>
      obtain ⟨r⟩ := d
      cases hview : readView T .kAllow b with
      | ok w s =>
          simp only [RlpDecoder.remaining, EStateM.Result.ok.injEq, RlpDecoder.mk.injEq]
          exact ⟨fun ⟨hv, hr⟩ _ _ => by rw [hv, hr], fun h => ((h w s).mpr ⟨rfl, rfl⟩)⟩
      | error e s =>
          simp only [reduceCtorEq, iff_false, false_iff, not_forall, not_not]
          exact ⟨v, r, rfl⟩
  | error e d =>
      cases hview : readView T .kAllow b with
      | ok w s =>
          simp only [reduceCtorEq, false_iff, not_forall, not_not]
          exact ⟨w, s, rfl⟩
      | error e' s => simp

/-- The member read of a truth value accepts the byte `0x00` too. -/
theorem readBool_eq_ok_iff_readView {b r : ByteView} {v : Bool} :
    readBool ⟨b⟩ = .ok v ⟨r⟩ ↔ readView .bool .kAllow b = .ok v r ∨ (v = false ∧ b = 0x00 :: r) := by
  have hsingle : readBytes ⟨b⟩ = .ok [0] ⟨r⟩ ↔ b = 0x00 :: r := by
    rw [readBytes_eq_ok_iff]
    exact ⟨fun h => h.2, fun h => ⟨by decide, h⟩⟩
  rw [readBool_eq_ok_iff, readView_bool_eq_ok_iff, ← hsingle]
  constructor
  · rintro ⟨p, hread, rfl | ⟨hv, rfl⟩⟩
    · exact .inl hread
    · exact .inr ⟨hv, hread⟩
  · rintro (hread | ⟨hv, hread⟩)
    · exact ⟨_, hread, .inl rfl⟩
    · exact ⟨_, hread, .inr ⟨hv, rfl⟩⟩

/-- **Where the two reads of a type agree.** `read<T>(out)` and `read(data, out, Leftover::kAllow)` accept the same
bytes, with the same value and the same bytes left, except for a truth value at the byte `0x00`. -/
theorem read_paths_agree_iff (T : ScalarTy) (b : ByteView) : ReadsAgree T b ↔ ¬ (T = .bool ∧ b.head? = some 0x00) := by
  rw [readsAgree_iff]
  cases T with
  | uint T =>
      refine iff_of_true (fun v r => ?_) (by simp)
      exact readUInt_eq_ok_iff_readBytes.trans readView_uint_eq_ok_iff.symm
  | bool =>
      constructor
      · rintro hagree ⟨-, hhead⟩
        obtain ⟨r, rfl⟩ := List.head?_eq_some_iff.mp hhead
        -- the member read takes the byte for `false`
        have hview := (hagree false r).mp (readBool_eq_ok_iff_readView.mpr (.inr ⟨rfl, rfl⟩))
        obtain ⟨p, hp, hcons⟩ := readView_eq_ok_iff.mp hview
        rw [show p = _ from hp] at hcons
        exact absurd (List.cons.inj hcons).1 (by decide)
      · intro hno v r
        refine readBool_eq_ok_iff_readView.trans (or_iff_left ?_)
        rintro ⟨-, rfl⟩
        exact hno ⟨rfl, rfl⟩

/-- The byte `0x00` is `false` for `read<bool>(out)`, and no truth value for the read from a view. -/
theorem read_paths_differ_at_zero :
    readAs .bool ⟨[0x00]⟩ = .ok false ⟨[]⟩ ∧ readView .bool .kAllow [0x00] = .error .kOverflow [0x00] ∧
      ¬ ReadsAgree .bool [0x00] := by
  refine ⟨rfl, rfl, ?_⟩
  unfold ReadsAgree
  exact id

end DevP2P.Rlp
