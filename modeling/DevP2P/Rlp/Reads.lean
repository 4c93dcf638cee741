import DevP2P.Lib.Concat
import DevP2P.Rlp.Appends

/-!
# Calls that read

* `Parses x G` : `x` succeeds with `v` on the inputs that start with some `p` with `G v p`, and drops `p`; one rule for
  each read of the decoder, and for sequences (`Parses.bind_eq_ok`);
* `readList`, `readListOf` : a list whose end is checked, with a fixed content or with items of one kind up to its end;
* `consumeNextItem` : one item as bytes, `IsItem`; items are found from the front (`isItem_prefixFree`).
-/

namespace DevP2P.Rlp
open DevP2P.Lib Stateful

variable {ε α β : Type}

/-- `x` succeeds with `v` exactly on the inputs that start with some `p` with `G v p`, and drops `p`. -/
def Parses (x : EStateM ε RlpDecoder α) (G : α → Bytes → Prop) : Prop :=
  ∀ b v r, x ⟨b⟩ = .ok v ⟨r⟩ ↔ ∃ p, G v p ∧ b = p ++ r

namespace Parses

variable {x : EStateM ε RlpDecoder α} {G H : α → Bytes → Prop}

theorem run (hx : Parses x G) {v : α} {p : Bytes} (h : G v p) (r : Bytes) : x ⟨p ++ r⟩ = .ok v ⟨r⟩ :=
  (hx _ _ _).mpr ⟨p, h, rfl⟩

theorem unique (hx : Parses x G) {v w : α} {p q r s : Bytes} (hp : G v p) (hq : G w q) (h : p ++ r = q ++ s) :
    v = w ∧ p = q ∧ r = s := by
  have hrun := (hx.run hp r).symm.trans ((congrArg (fun b => x ⟨b⟩) h).trans (hx.run hq s))
  simp only [EStateM.Result.ok.injEq, RlpDecoder.mk.injEq] at hrun
  obtain ⟨rfl, rfl⟩ := hrun
  exact ⟨rfl, List.append_cancel_right h, rfl⟩

theorem congr (hx : Parses x G) (h : ∀ v p, G v p ↔ H v p) : Parses x H := by
  intro b v r
  simp only [hx b v r, h]

theorem withError {ε' : Type} (hx : Parses x G) (e : ε') : Parses (withError e x) G := by
  intro b v r
  rw [withError_eq_ok, hx b v r]

theorem bind_eq_ok (hx : Parses x G) {k : α → EStateM ε RlpDecoder β} {b : Bytes} {w : β} {d : RlpDecoder} :
    (x >>= k) ⟨b⟩ = .ok w d ↔ ∃ a p b', G a p ∧ b = p ++ b' ∧ k a ⟨b'⟩ = .ok w d := by
  rw [Stateful.bind_eq_ok]
  constructor
  · rintro ⟨a, ⟨b'⟩, ha, hk⟩
    obtain ⟨p, hp, rfl⟩ := (hx _ _ _).mp ha
    exact ⟨a, p, b', hp, rfl, hk⟩
  · rintro ⟨a, p, b', hp, rfl, hk⟩
    exact ⟨a, ⟨b'⟩, hx.run hp b', hk⟩

theorem bind {k : α → EStateM ε RlpDecoder β} {K : α → β → Bytes → Prop} (hx : Parses x G)
    (hk : ∀ a q, G a q → Parses (k a) (K a)) :
    Parses (x >>= k) fun w p => ∃ a q r, G a q ∧ K a w r ∧ p = q ++ r := by
  intro b w r
  rw [hx.bind_eq_ok]
  constructor
  · rintro ⟨a, p, b', hp, rfl, hrun⟩
    obtain ⟨q, hq, rfl⟩ := (hk a p hp _ _ _).mp hrun
    exact ⟨p ++ q, ⟨a, p, q, hp, hq, rfl⟩, (List.append_assoc _ _ _).symm⟩
  · rintro ⟨-, ⟨a, p, q, hp, hq, rfl⟩, rfl⟩
    exact ⟨a, p, q ++ r, hp, List.append_assoc _ _ _, (hk a p hp).run hq r⟩

theorem pure (a : α) : Parses (Pure.pure a : EStateM ε RlpDecoder α) fun v p => v = a ∧ p = [] := by
  intro b v r
  simp only [pure_apply, EStateM.Result.ok.injEq, RlpDecoder.mk.injEq]
  constructor
  · rintro ⟨rfl, rfl⟩
    exact ⟨[], ⟨rfl, rfl⟩, rfl⟩
  · rintro ⟨-, ⟨rfl, rfl⟩, rfl⟩
    exact ⟨rfl, rfl⟩

theorem lift {f : α → Except ε β} (hx : Parses x G) :
    Parses (x >>= fun a => Stateful.lift (f a)) fun w p => ∃ a, G a p ∧ f a = .ok w := by
  intro b w r
  rw [hx.bind_eq_ok]
  constructor
  · rintro ⟨a, p, b', hp, rfl, hrun⟩
    obtain ⟨hf, hr⟩ := lift_eq_ok.mp hrun
    obtain rfl := RlpDecoder.mk.inj hr
    exact ⟨p, ⟨a, hp, hf⟩, rfl⟩
  · rintro ⟨p, ⟨a, hp, hf⟩, rfl⟩
    exact ⟨a, p, r, hp, rfl, lift_eq_ok.mpr ⟨hf, rfl⟩⟩

theorem map (hx : Parses x G) (f : α → β) :
    Parses (x >>= fun a => Pure.pure (f a)) fun w p => ∃ a, G a p ∧ w = f a := by
  apply (hx.bind fun a _ _ => Parses.pure (f a)).congr
  intro w p
  constructor
  · rintro ⟨a, q, r, hq, ⟨hw, rfl⟩, rfl⟩
    exact ⟨a, by rwa [List.append_nil], hw⟩
  · rintro ⟨a, hp, hw⟩
    exact ⟨a, p, [], hp, ⟨hw, rfl⟩, (List.append_nil p).symm⟩

end Parses

/-! ## Strings -/

theorem Parses.bytes : Parses readBytes fun s p => s.length < kSizeModulus ∧ p = encodeString s := by
  intro b s r
  rw [readBytes_eq_ok_iff]
  constructor
  · rintro ⟨hs, rfl⟩
    exact ⟨_, ⟨hs, rfl⟩, rfl⟩
  · rintro ⟨-, ⟨hs, rfl⟩, rfl⟩
    exact ⟨hs, rfl⟩

/-- `read(Bytes&)` fails where it peeks, with the error of the peek or because of a list, and leaves the view as it
was. -/
theorem readBytes_eq_error_iff {b : ByteView} {e : DecodingError} {d : RlpDecoder} :
    readBytes ⟨b⟩ = .error e d ↔
      ((RlpDecoder.mk b).peekHeader = .error e ∨ ∃ h, (RlpDecoder.mk b).peekHeader = .ok h ∧ h.list = true ∧
        .kUnexpectedList = e) ∧
        ⟨b⟩ = d := by
  cases hpeek : (RlpDecoder.mk b).peekHeader with
  | error e' =>
      unfold readBytes
      rw [get_bind, hpeek, bind_of_error (lift_error _ _)]
      simp
  | ok h =>
      cases hl : h.list with
      | false =>
          obtain ⟨w, hc⟩ := peekHeader_eq_ok_iff.mp hpeek
          rw [readBytes_of_canonicalHeader hc hl]
          simp [hl]
      | true =>
          unfold readBytes
          rw [get_bind, hpeek, bind_of_ok (lift_ok _ _), rejectIf_bind_of hl]
          simp [hl]

theorem CanonicalHeader.of_encodeString {s r w : Bytes} {h : Header} (hc : CanonicalHeader (encodeString s ++ r) h w)
    (hs : s.length < kSizeModulus) : h.list = false ∧ h.payloadSizeBytes = s.length := by
  obtain ⟨h', hc', hl, hsize⟩ := canonicalHeader_encodeString hs r
  rw [hc.header_unique hc']
  exact ⟨hl, hsize⟩

theorem arraySize_eq {h : Header} {n : Nat}
    (hn : ¬ (h.payloadSizeBytes ≠ n ∧ ¬ (n = 1 ∧ h.payloadSizeBytes = 1 ∧ h.headerSizeBytes = 0))) :
    h.payloadSizeBytes = n := by
  by_contra hne
  exact hn ⟨hne, fun h1 => hne (h1.2.1.trans h1.1.symm)⟩

/-- A read into an array is `read(Bytes&)` of a string of the array's size. -/
theorem readArray_eq_ok_iff {n : Nat} {b r : ByteView} {a : FixedBytes n} :
    readArray n ⟨b⟩ = .ok a ⟨r⟩ ↔ readBytes ⟨b⟩ = .ok a.bytes ⟨r⟩ := by
  rw [readBytes_eq_ok_iff_header]
  unfold readArray
  rw [get_bind, peekHeader_bind_eq_ok]
  constructor
  · rintro ⟨h, w, hc, hok⟩
    obtain ⟨hl, hok⟩ := rejectIf_bind_eq_ok.mp hok
    obtain ⟨hn, hok⟩ := rejectIf_bind_eq_ok.mp hok
    rw [bind_of_ok (skipHeaderInternal_run hc), get_bind] at hok
    obtain ⟨-, hok⟩ := rejectIf_bind_eq_ok.mp hok
    obtain ⟨rfl, rfl⟩ := dropFront_pure_eq_ok.mp hok
    have hsize := arraySize_eq hn
    have hle := hc.payload_le
    rw [hsize] at hle
    exact ⟨h, w, hc, by simpa using hl, by rw [FixedBytes.bytes_load hle, List.take_append_drop],
      (FixedBytes.size_eq _).trans hsize.symm⟩
  · rintro ⟨h, w, hc, hl, rfl, hs⟩
    have hsize : h.payloadSizeBytes = n := hs.symm.trans a.size_eq
    refine ⟨h, _, hc, ?_⟩
    rw [rejectIf_bind_of_not (by simp [hl]), rejectIf_bind_of_not (fun hn => hn.1 hsize),
      bind_of_ok (skipHeaderInternal_run hc), get_bind,
      rejectIf_bind_of_not (by simp [a.size_eq]), bind_of_ok (dropFront_apply _ _),
      pure_apply, FixedBytes.load_append, List.drop_left' a.size_eq]

/-! ## Integers and truth values -/

/-- What `read_bool` takes for a truth value: `1`, or nothing or `0` for `false`. -/
theorem boolOf_eq_ok_iff {h : Header} {p : Bytes} {first : UInt8} {v : Bool} (hp : p.length = h.payloadSizeBytes)
    (hfirst : p = [] → h.headerSizeBytes = 1 ∧ first = kEmptyStringCode) :
    boolOf h p first = .ok v ↔ p = beBytes v.toNat ∨ (v = false ∧ p = [0]) := by
  have hone : beBytes 1 = [1] := by decide
  have hzero : beBytes 0 = [] := by decide
  unfold boolOf
  rcases p with _ | ⟨x, _ | ⟨y, p⟩⟩
  · rw [if_neg (by rw [← hp]; simp), if_pos ⟨hp.symm, hfirst rfl⟩]
    cases v <;> simp [hone, hzero]
  · rw [if_pos (show h.payloadSizeBytes = 1 from hp.symm)]
    by_cases h1 : x = 1
    · subst h1
      cases v <;> simp [hone, hzero]
    · by_cases h0 : x = 0
      · subst h0
        cases v <;> simp [hone, hzero]
      · cases v <;> simp [h0, h1, hone, hzero]
  · simp only [List.length_cons] at hp
    rw [if_neg (by omega), if_neg (by omega)]
    cases v <;> simp [hone, hzero]

theorem header_of_readBytes_nil {b r : ByteView} {p : Bytes} {h : Header} (hread : readBytes ⟨b⟩ = .ok p ⟨r⟩)
    (hdrop : b.drop (h.headerSizeBytes + p.length) = r) (hlen : ¬ b.length < h.headerSizeBytes + p.length)
    (hp : p = []) :
    h.headerSizeBytes = 1 ∧ Bytes.at b 0 = kEmptyStringCode := by
  subst hp
  obtain ⟨-, hb⟩ := readBytes_eq_ok_iff.mp hread
  rw [encodeString_nil] at hb
  have := congrArg List.length hdrop
  subst hb
  simp only [List.length_drop, List.singleton_append, List.length_cons, List.length_nil] at this hlen
  exact ⟨by omega, rfl⟩

/-- `read_bool` is `read(Bytes&)` of a truth value. -/
theorem readBool_eq_ok_iff {b r : ByteView} {v : Bool} :
    readBool ⟨b⟩ = .ok v ⟨r⟩ ↔
      ∃ p, readBytes ⟨b⟩ = .ok p ⟨r⟩ ∧ (p = beBytes v.toNat ∨ (v = false ∧ p = [0])) := by
  unfold readBool
  rw [get_bind, peekHeader_bind_eq_ok]
  constructor
  · rintro ⟨h, w, hc, hok⟩
    obtain ⟨hview, hdrop, hlen⟩ := hc.view_eq
    obtain ⟨hl, hok⟩ := rejectIf_bind_eq_ok.mp hok
    obtain ⟨-, hok⟩ := rejectIf_bind_eq_ok.mp hok
    obtain ⟨out, d, hlift, hok⟩ := Stateful.bind_eq_ok.mp hok
    obtain ⟨hout, rfl⟩ := lift_eq_ok.mp hlift
    obtain ⟨rfl, rfl⟩ := dropFront_pure_eq_ok.mp hok
    rw [hdrop]
    have hread := readBytes_of_canonicalHeader hc (by simpa using hl)
    have hsize := hc.length_payload
    rw [hview] at hout
    rw [← hsize] at hdrop hlen
    refine ⟨_, hread, (boolOf_eq_ok_iff hsize fun hp => ?_).mp hout⟩
    apply header_of_readBytes_nil hread _ hlen hp
    rwa [hsize] at hdrop ⊢
  · rintro ⟨p, hread, hp⟩
    obtain ⟨h, w, hc, hl, hsize, hview, hdrop, hlen, -⟩ := exists_header_of_readBytes hread
    refine ⟨h, w, hc, ?_⟩
    have hout : boolOf h p (Bytes.at b 0) = .ok v :=
      (boolOf_eq_ok_iff hsize.symm (header_of_readBytes_nil hread hdrop hlen)).mpr hp
    rw [rejectIf_bind_of_not (by simp [hl]), hsize, rejectIf_bind_of_not hlen, hview, hout,
      bind_of_ok (lift_ok _ _), bind_of_ok (dropFront_apply _ _), hdrop, pure_apply]

/-! ## Items -/

/-- `p` is one item: a string, or a list with some payload. -/
def IsItem (p : Bytes) : Prop :=
  (∃ s : Bytes, s.length < kSizeModulus ∧ p = encodeString s) ∨ ∃ q : Bytes, q.length < kSizeModulus ∧ p = encodeList q

theorem isItem_encodeString {s : Bytes} (h : s.length < kSizeModulus) : IsItem (encodeString s) := .inl ⟨s, h, rfl⟩

theorem isItem_encodeList {q : Bytes} (h : q.length < kSizeModulus) : IsItem (encodeList q) := .inr ⟨q, h, rfl⟩

theorem encodeString_ne_nil (s : Bytes) : encodeString s ≠ [] := List.length_pos_iff.mp (length_encodeString_pos s)

theorem encodeList_ne_nil (q : Bytes) : encodeList q ≠ [] := by
  unfold encodeList
  simp [headerBytes_ne_nil]

theorem IsItem.ne_nil {p : Bytes} (h : IsItem p) : p ≠ [] := by
  rcases h with ⟨s, -, rfl⟩ | ⟨q, -, rfl⟩
  · exact encodeString_ne_nil s
  · exact encodeList_ne_nil q

/-- `SkipItem` passes over one item. -/
theorem skipItem_eq_ok_iff {b r : ByteView} : skipItem ⟨b⟩ = .ok () ⟨r⟩ ↔ ∃ p, IsItem p ∧ b = p ++ r := by
  unfold skipItem
  rw [get_bind, peekHeader_bind_eq_ok]
  constructor
  · rintro ⟨h, w, hc, hok⟩
    rw [bind_of_ok (skipHeaderInternal_run hc), get_bind,
      rejectIf_bind_of_not (not_lt.mpr hc.payload_le), dropFront_apply] at hok
    simp only [EStateM.Result.ok.injEq, RlpDecoder.mk.injEq, true_and] at hok
    subst hok
    cases hl : h.list with
    | false =>
        obtain ⟨hs, hb⟩ := readBytes_eq_ok_iff.mp (readBytes_of_canonicalHeader hc hl)
        exact ⟨_, isItem_encodeString hs, hb⟩
    | true =>
        obtain ⟨hq, hb⟩ := eq_encodeList_of_canonicalHeader hc hl
        exact ⟨_, isItem_encodeList hq, hb⟩
  · rintro ⟨p, hp, rfl⟩
    have hdone {h : Header} {s : Bytes} (hc : CanonicalHeader (p ++ r) h (s ++ r))
        (hs : h.payloadSizeBytes = s.length) :
        ∃ h w, CanonicalHeader (p ++ r) h w ∧ (do
          skipHeaderInternal
          let d ← get
          rejectIf (d.view.length < h.payloadSizeBytes) .kInputTooShort
          dropFront h.payloadSizeBytes : DecodeM Unit) ⟨p ++ r⟩ = .ok () ⟨r⟩ := by
      refine ⟨h, _, hc, ?_⟩
      rw [bind_of_ok (skipHeaderInternal_run hc), get_bind,
        rejectIf_bind_of_not (not_lt.mpr hc.payload_le), dropFront_apply, hs, List.drop_left]
    rcases hp with ⟨s, hs, rfl⟩ | ⟨q, hq, rfl⟩
    · obtain ⟨h, hc, -, hsize⟩ := canonicalHeader_encodeString hs r
      exact hdone hc hsize
    · have hc : CanonicalHeader (headerBytes true q.length ++ (q ++ r)) _ (q ++ r) := .header hq (by simp) nofun
      rw [← List.append_assoc] at hc
      exact hdone hc rfl

/-- `consume_next_item`: one item, as the bytes it takes. -/
def consumeNextItem : DecodeM ByteView := do
  let before ← get
  rejectIf (before.view.isEmpty) .kInputTooShort
  skipItem
  let after ← get
  return before.view.take (before.view.length - after.view.length)

theorem Parses.item : Parses consumeNextItem fun v p => v = p ∧ IsItem p := by
  intro b v r
  unfold consumeNextItem
  rw [get_bind, rejectIf_bind_eq_ok, Stateful.bind_eq_ok]
  constructor
  · rintro ⟨-, ⟨⟩, ⟨r'⟩, hskip, hok⟩
    obtain ⟨p, hp, rfl⟩ := skipItem_eq_ok_iff.mp hskip
    rw [get_bind, pure_apply] at hok
    simp only [EStateM.Result.ok.injEq, RlpDecoder.mk.injEq, List.length_append, Nat.add_sub_cancel,
      List.take_left] at hok
    obtain ⟨rfl, rfl⟩ := hok
    exact ⟨_, ⟨rfl, hp⟩, rfl⟩
  · rintro ⟨p, ⟨rfl, hp⟩, rfl⟩
    refine ⟨?_, (), ⟨r⟩, skipItem_eq_ok_iff.mpr ⟨_, hp, rfl⟩, ?_⟩
    · simp [hp.ne_nil]
    · rw [get_bind, pure_apply]
      simp

theorem isItem_prefixFree : PrefixFree IsItem := fun _ _ _ _ hp hq h => (Parses.item.unique ⟨rfl, hp⟩ ⟨rfl, hq⟩ h).1

theorem not_isItem_append {p r : Bytes} (hp : IsItem p) (hr : r ≠ []) : ¬ IsItem (p ++ r) := by
  intro h
  have := isItem_prefixFree p (p ++ r) r [] hp h (List.append_nil _).symm
  exact hr (List.self_eq_append_right.mp this)

theorem encodeString_inj {s t : Bytes} (hs : s.length < kSizeModulus) (ht : t.length < kSizeModulus)
    (h : encodeString s = encodeString t) : s = t :=
  (Parses.bytes.unique ⟨hs, rfl⟩ ⟨ht, rfl⟩ (congrArg (· ++ []) h)).1

theorem headerBytes_append_inj {n m : Nat} {v w : Bytes} (hn : n < kSizeModulus) (hnv : n ≤ v.length)
    (hm : m < kSizeModulus)
    (hmw : m ≤ w.length) (h : headerBytes true n ++ v = headerBytes true m ++ w) : n = m ∧ v = w := by
  have hread := readListHeaderBytes_eq_ok_iff.mpr ⟨hn, hnv, rfl⟩
  rw [h, readListHeaderBytes_eq_ok_iff.mpr ⟨hm, hmw, rfl⟩] at hread
  simp only [EStateM.Result.ok.injEq, RlpDecoder.mk.injEq] at hread
  exact ⟨hread.1.symm, hread.2.symm⟩

theorem readListHeaderBytes_encodeList_append {p : Bytes} (hp : p.length < kSizeModulus) (r : Bytes) :
    readListHeaderBytes ⟨encodeList p ++ r⟩ = .ok p.length ⟨p ++ r⟩ := by
  refine readListHeaderBytes_eq_ok_iff.mpr ⟨hp, by simp, ?_⟩
  rw [encodeList, List.append_assoc]

theorem readListHeaderBytes_encodeList {p : Bytes} (h : p.length < kSizeModulus) :
    readListHeaderBytes ⟨encodeList p⟩ = .ok p.length ⟨p⟩ :=
  readListHeaderBytes_eq_ok_iff.mpr ⟨h, le_rfl, rfl⟩

theorem encodeList_inj {p q : Bytes} (hp : p.length < kSizeModulus) (hq : q.length < kSizeModulus)
    (h : encodeList p = encodeList q) : p = q := by
  have heq := (readListHeaderBytes_encodeList hp).symm.trans (h ▸ readListHeaderBytes_encodeList hq)
  simp only [EStateM.Result.ok.injEq, RlpDecoder.mk.injEq] at heq
  exact heq.2

theorem ne_encodeList (q : Bytes) : q ≠ encodeList q := by
  intro h
  exact headerBytes_ne_nil true q.length (List.self_eq_append_left.mp h)

/-! ## Lists -/

/-- A list whose end is checked: `body` gets the number of bytes behind the list. -/
def readList (body : Nat → DecodeM α) : DecodeM α := do
  let payloadSize ← readListHeaderBytes
  let d ← get
  let targetRemaining := d.view.length - payloadSize
  let a ← body targetRemaining
  let d ← get
  rejectIf (d.view.length ≠ targetRemaining) .kListLengthMismatch
  return a

/-- `while (decoder.Remaining().size() > target)`, with room for `fuel` rounds. -/
def readWhile (x : DecodeM α) (target : Nat) : Nat → List α → DecodeM (List α)
  | 0, acc => return acc
  | fuel + 1, acc => do
    let d ← get
    if d.view.length > target then
      let a ← x
      readWhile x target fuel (acc ++ [a])
    else return acc

/-- The loop over the items in front of the last `target` bytes; every round takes a byte at least. -/
def readItems (x : DecodeM α) (target : Nat) : DecodeM (List α) := do
  let d ← get
  readWhile x target d.view.length []

def readListOf (x : DecodeM α) : DecodeM (List α) := readList (readItems x)

/-- What `readList` accepts, for a `body` that stops where the list ends. -/
theorem Parses.ofReadList {body : Nat → DecodeM α} {G : α → Bytes → Prop}
    (hbody : ∀ b v r, body r.length ⟨b⟩ = .ok v ⟨r⟩ ↔ ∃ q, G v q ∧ b = q ++ r) :
    Parses (readList body) fun v p => ∃ q, G v q ∧ q.length < kSizeModulus ∧ p = encodeList q := by
  intro b v r
  unfold readList
  rw [Stateful.bind_eq_ok]
  constructor
  · rintro ⟨n, ⟨w⟩, hheader, hok⟩
    obtain ⟨hn, hle, rfl⟩ := readListHeaderBytes_eq_ok_iff.mp hheader
    rw [get_bind] at hok
    obtain ⟨a, ⟨r'⟩, hrun, hok⟩ := Stateful.bind_eq_ok.mp hok
    rw [get_bind] at hok
    obtain ⟨htarget, hok⟩ := rejectIf_bind_eq_ok.mp hok
    rw [pure_apply] at hok
    simp only [EStateM.Result.ok.injEq, RlpDecoder.mk.injEq] at hok
    obtain ⟨rfl, rfl⟩ := hok
    have hr : r'.length = w.length - n := not_not.mp htarget
    simp only [← hr] at hrun
    obtain ⟨q, hq, rfl⟩ := (hbody _ _ _).mp hrun
    have hsize : q.length = n := by
      rw [List.length_append] at hle hr
      omega
    exact ⟨_, ⟨q, hq, hsize ▸ hn, rfl⟩, by rw [encodeList, hsize, List.append_assoc]⟩
  · rintro ⟨p, ⟨q, hq, hn, rfl⟩, rfl⟩
    refine ⟨q.length, ⟨q ++ r⟩, readListHeaderBytes_encodeList_append hn r, ?_⟩
    have htarget : (q ++ r).length - q.length = r.length := by
      rw [List.length_append]
      omega
    rw [get_bind]
    simp only [htarget]
    rw [bind_of_ok ((hbody _ _ _).mpr ⟨q, hq, rfl⟩), get_bind,
      rejectIf_bind_of_not (by simp), pure_apply]

/-- `p` is a list of items, one for each element of `vs`. -/
def ListOf (G : α → Bytes → Prop) (vs : List α) (p : Bytes) : Prop :=
  ∃ q, Concat G vs q ∧ q.length < kSizeModulus ∧ p = encodeList q

theorem Parses.list {x : DecodeM α} {G : α → Bytes → Prop} (hx : Parses x G) :
    Parses (readList fun _ => x) fun v p => ∃ q, G v q ∧ q.length < kSizeModulus ∧ p = encodeList q :=
  Parses.ofReadList hx

theorem readWhile_eq_ok_iff {x : DecodeM α} {G : α → Bytes → Prop} (hx : Parses x G) (hne : ∀ v p, G v p → p ≠ [])
    (r : Bytes) (fuel : Nat) : ∀ (b : Bytes) (acc vs : List α), b.length ≤ fuel →
      (readWhile x r.length fuel acc ⟨b⟩ = .ok vs ⟨r⟩ ↔ ∃ ws q, vs = acc ++ ws ∧ Concat G ws q ∧ b = q ++ r) := by
  have hstop (b : Bytes) (acc vs : List α) (hb : ¬ b.length > r.length) :
      (EStateM.Result.ok acc (RlpDecoder.mk b) : EStateM.Result DecodingError _ _) = .ok vs ⟨r⟩ ↔
        ∃ ws q, vs = acc ++ ws ∧ Concat G ws q ∧ b = q ++ r := by
    simp only [EStateM.Result.ok.injEq, RlpDecoder.mk.injEq]
    constructor
    · rintro ⟨rfl, rfl⟩
      exact ⟨[], [], (List.append_nil _).symm, concat_nil.mpr rfl, rfl⟩
    · rintro ⟨ws, q, rfl, hq, rfl⟩
      -- nothing is left in front of the target
      obtain rfl : q = [] := by
        rw [List.length_append] at hb
        exact List.length_eq_zero_iff.mp (by omega)
      rw [hq.eq_nil hne, List.append_nil]
      exact ⟨rfl, rfl⟩
  induction fuel with
  | zero =>
      intro b acc vs hb
      exact hstop b acc vs (by omega)
  | succ fuel ih =>
      intro b acc vs hb
      unfold readWhile
      rw [get_bind]
      by_cases hlt : b.length > r.length
      · simp only [if_pos hlt, hx.bind_eq_ok]
        constructor
        · rintro ⟨a, p, b', hp, rfl, hok⟩
          have hpos := List.length_pos_iff.mpr (hne a p hp)
          rw [List.length_append] at hb
          obtain ⟨ws, q, rfl, hq, rfl⟩ := (ih b' _ _ (by omega)).mp hok
          exact ⟨a :: ws, p ++ q, by simp, concat_cons.mpr ⟨p, q, hp, hq, rfl⟩, (List.append_assoc _ _ _).symm⟩
        · rintro ⟨ws, q, rfl, hq, rfl⟩
          cases ws with
          | nil =>
              rw [concat_nil.mp hq] at hlt
              exact absurd hlt (lt_irrefl _)
          | cons a ws =>
              obtain ⟨p, q, hp, hws, rfl⟩ := concat_cons.mp hq
              have hpos := List.length_pos_iff.mpr (hne a p hp)
              simp only [List.length_append] at hb
              refine ⟨a, p, q ++ r, hp, List.append_assoc _ _ _, ?_⟩
              exact (ih _ _ _ (by rw [List.length_append]; omega)).mpr ⟨ws, q, by simp, hws, rfl⟩
      · simp only [if_neg hlt]
        exact hstop b acc vs hlt

theorem readWhile_run {x : DecodeM α} {f : α → Bytes} (hne : ∀ a, f a ≠ []) (r : Bytes) (as : List α)
    (hx : ∀ a ∈ as, ∀ s, x ⟨f a ++ s⟩ = .ok a ⟨s⟩) (fuel : Nat) (acc : List α)
    (hfuel : (as.flatMap f ++ r).length ≤ fuel) :
    readWhile x r.length fuel acc ⟨as.flatMap f ++ r⟩ = .ok (acc ++ as) ⟨r⟩ := by
  induction as generalizing fuel acc with
  | nil =>
      rw [List.flatMap_nil, List.nil_append, List.append_nil]
      cases fuel with
      | zero => rfl
      | succ fuel =>
          unfold readWhile
          rw [get_bind]
          simp only [if_neg (lt_irrefl r.length), pure_apply]
  | cons a as ih =>
      have hpos := List.length_pos_iff.mpr (hne a)
      rw [List.flatMap_cons, List.append_assoc, List.length_append] at hfuel
      rw [List.flatMap_cons, List.append_assoc]
      cases fuel with
      | zero => omega
      | succ fuel =>
          have hlt : (f a ++ (as.flatMap f ++ r)).length > r.length := by
            simp only [List.length_append]
            omega
          unfold readWhile
          rw [get_bind]
          simp only [if_pos hlt]
          rw [bind_of_ok (hx a List.mem_cons_self _),
            ih (fun b hb => hx b (List.mem_cons_of_mem a hb)) fuel _ (by omega), List.append_assoc,
            List.singleton_append]

theorem readItems_run {x : DecodeM α} {f : α → Bytes} (hne : ∀ a, f a ≠ []) (as : List α)
    (hx : ∀ a ∈ as, ∀ s, x ⟨f a ++ s⟩ = .ok a ⟨s⟩) : readItems x 0 ⟨as.flatMap f⟩ = .ok as ⟨[]⟩ := by
  have hrun := readWhile_run hne [] as hx (as.flatMap f).length [] (by rw [List.append_nil])
  rwa [List.append_nil] at hrun

theorem Parses.items {x : DecodeM α} {G : α → Bytes → Prop} (hx : Parses x G) (hne : ∀ v p, G v p → p ≠ [])
    (b : Bytes) (vs : List α) (r : Bytes) :
    readItems x r.length ⟨b⟩ = .ok vs ⟨r⟩ ↔ ∃ q, Concat G vs q ∧ b = q ++ r := by
  unfold readItems
  rw [get_bind, readWhile_eq_ok_iff hx hne r _ b [] vs le_rfl]
  simp

theorem Parses.listOf {x : DecodeM α} {G : α → Bytes → Prop} (hx : Parses x G) (hne : ∀ v p, G v p → p ≠ []) :
    Parses (readListOf x) (ListOf G) :=
  Parses.ofReadList (hx.items hne)

end DevP2P.Rlp
