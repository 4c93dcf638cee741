import DevP2P.Rlp.Reads

/-!
# Fields

An object is written as a list of fields. What a read accepts for a field can be more than what the encoder writes for
it.

* `Field` : a field of an object; `Field.encoding` is what the encoder writes, `Field.Reads` what a read accepts;
* `Parses.fields`, `Parses.field`, `Parses.done` : the fields of an object, read one after the other;
* `Parses.exactList`, `Parses.exactListOf` : a list of fields that are read as they are written only is such a field
  itself;
* `Appends.field`, `Appends.lastField` : the calls that write them.
-/

namespace DevP2P.Rlp
open DevP2P.Lib

variable {ε α β : Type}

inductive Field
  | string (s : Bytes)
  | list (payload : Bytes)
  | number (T : UIntTy) (n : T.Val)
  | flag (b : Bool)
  | status (b : Bool)

namespace Field

def encoding : Field → Bytes
  | string s => encodeString s
  | list payload => encodeList payload
  | number _ n => encodeString (beBytes n.toNat)
  | flag b => encodeString (beBytes b.toNat)
  | status b => encodeString (beBytes b.toNat)

/-- The sizes fit `size_t`. -/
def Sized : Field → Prop
  | string s => s.length < kSizeModulus
  | list payload => payload.length < kSizeModulus
  | _ => True

/-- What the read of the field accepts: zero may also be the byte `0x00`, and every byte but zero is the status
`true`. -/
def Reads : Field → Bytes → Prop
  | string s, p => s.length < kSizeModulus ∧ p = encodeString s
  | list payload, p => payload.length < kSizeModulus ∧ p = encodeList payload
  | number _ n, p => p = encodeString (beBytes n.toNat) ∨ (n = 0 ∧ p = [0])
  | flag b, p => p = encodeString (beBytes b.toNat) ∨ (b = false ∧ p = [0])
  | status b, p => (b = false ∧ p = encodeString []) ∨ ∃ x, b = (x != 0) ∧ p = encodeString [x]

/-- The field is read as it is written only. -/
def Exact : Field → Prop
  | string _ => True
  | list _ => True
  | _ => False

variable {f : Field} {p : Bytes}

theorem reads_encoding (h : f.Sized) : f.Reads f.encoding := by
  cases f with
  | string s => exact ⟨h, rfl⟩
  | list payload => exact ⟨h, rfl⟩
  | number T n => exact .inl rfl
  | flag b => exact .inl rfl
  | status b =>
      cases b with
      | false => exact .inl ⟨rfl, by decide⟩
      | true => exact .inr ⟨1, by decide, by decide⟩

theorem length_beBytes_lt {T : UIntTy} (n : T.Val) : (beBytes n.toNat).length < kSizeModulus := by
  have hle : byteLength n.toNat ≤ T.sizeof := (byteLength_le_iff _ _).mpr (UIntTy.val_lt n)
  rw [length_beBytes]
  exact lt_of_le_of_lt (hle.trans T.sizeof_le) (by decide)

theorem isItem_singleton (x : UInt8) : IsItem (encodeString [x]) :=
  isItem_encodeString (by rw [List.length_singleton]; decide)

theorem isItem_zero : IsItem [0] := isItem_singleton 0

theorem Reads.isItem (h : f.Reads p) : IsItem p := by
  cases f with
  | string s => exact .inl ⟨s, h⟩
  | list payload => exact .inr ⟨payload, h⟩
  | number T n =>
      rcases h with rfl | ⟨-, rfl⟩
      · exact isItem_encodeString (length_beBytes_lt n)
      · exact isItem_zero
  | flag b =>
      rcases h with rfl | ⟨-, rfl⟩
      · exact isItem_encodeString (by cases b <;> decide)
      · exact isItem_zero
  | status b =>
      rcases h with ⟨-, rfl⟩ | ⟨x, -, rfl⟩
      · exact isItem_encodeString (by decide)
      · exact isItem_singleton x

theorem Reads.eq_encoding (h : f.Reads p) (hexact : f.Exact) : p = f.encoding := by
  cases f with
  | string s => exact h.2
  | list payload => exact h.2
  | _ => exact hexact.elim

theorem sized_of_length (h : f.encoding.length < kSizeModulus) : f.Sized := by
  cases f with
  | string s => exact lt_of_le_of_lt (length_le_encodeString s) h
  | list payload => exact lt_of_le_of_lt (length_le_encodeList payload) h
  | _ => exact trivial

end Field

def encodeFields (fs : List Field) : Bytes := fs.flatMap Field.encoding

@[simp] theorem encodeFields_nil : encodeFields [] = [] := rfl

@[simp] theorem encodeFields_cons (f : Field) (fs : List Field) :
    encodeFields (f :: fs) = f.encoding ++ encodeFields fs := List.flatMap_cons

theorem encodeFields_singleton (f : Field) : encodeFields [f] = f.encoding := by
  rw [encodeFields_cons, encodeFields_nil, List.append_nil]

theorem encodeFields_append (fs gs : List Field) : encodeFields (fs ++ gs) = encodeFields fs ++ encodeFields gs :=
  List.flatMap_append

theorem length_encoding_le {f : Field} {fs : List Field} (h : f ∈ fs) :
    f.encoding.length ≤ (encodeFields fs).length := by
  rw [encodeFields, List.flatMap_def]
  exact (List.sublist_flatten_of_mem (List.mem_map_of_mem h)).length_le

theorem sized_of_length_encodeFields {fs : List Field} (h : (encodeFields fs).length < kSizeModulus) :
    ∀ f ∈ fs, f.Sized :=
  fun _ hf => Field.sized_of_length (lt_of_le_of_lt (length_encoding_le hf) h)

theorem fieldsRead_encodeFields {fs : List Field} (h : (encodeFields fs).length < kSizeModulus) :
    Concat Field.Reads fs (encodeFields fs) := by
  apply Concat.mono (concat_eq_iff.mpr rfl)
  intro f hf q hq
  rw [hq]
  exact Field.reads_encoding (sized_of_length_encodeFields h f hf)

/-- More than the encoding takes. -/
def Field.bound : Field → Nat
  | .string s => s.length + 9
  | .list payload => payload.length + 9
  | _ => 41

theorem Field.length_encoding_le_bound {f : Field} (h : f.Sized) : f.encoding.length ≤ f.bound := by
  have hnumber {n : Nat} (hn : byteLength n ≤ 32) : (encodeString (beBytes n)).length ≤ 41 := by
    have hlt : (beBytes n).length < kSizeModulus := by
      rw [length_beBytes]
      exact lt_of_le_of_lt hn (by decide)
    have := length_encodeString_le hlt
    rw [length_beBytes] at this
    omega
  cases f with
  | string s => exact length_encodeString_le h
  | list payload => exact length_encodeList_le h
  | number T n => exact hnumber (((byteLength_le_iff _ _).mpr (UIntTy.val_lt n)).trans T.sizeof_le)
  | flag b => exact hnumber (by cases b <;> decide)
  | status b => exact hnumber (by cases b <;> decide)

theorem length_encodeFields_le_bound (fs : List Field) (h : ∀ f ∈ fs, f.Sized) :
    (encodeFields fs).length ≤ (fs.map Field.bound).sum := by
  induction fs with
  | nil => simp
  | cons f fs ih =>
      obtain ⟨hf, hfs⟩ := List.forall_mem_cons.mp h
      have := Field.length_encoding_le_bound hf
      have := ih hfs
      rw [encodeFields_cons, List.length_append, List.map_cons, List.sum_cons]
      omega

theorem Field.encoding_ne_nil (f : Field) : f.encoding ≠ [] := by
  cases f with
  | list payload => exact encodeList_ne_nil payload
  | _ => exact encodeString_ne_nil _

theorem not_isItem_encodeFields {f g : Field} {fs : List Field} (hf : f.Sized) :
    ¬ IsItem (encodeFields (f :: g :: fs)) := by
  rw [encodeFields_cons]
  apply not_isItem_append (Field.reads_encoding hf).isItem
  intro h
  rw [encodeFields_cons] at h
  exact Field.encoding_ne_nil g (List.append_eq_nil_iff.mp h).1

theorem eq_encodeFields {fs : List Field} (hexact : ∀ f ∈ fs, f.Exact) {p : Bytes} (h : Concat Field.Reads fs p) :
    p = encodeFields fs :=
  concat_eq_iff.mp (h.mono fun f hf _ hq => hq.eq_encoding (hexact f hf))

namespace Appends

variable {x y : EncodeM Unit} {f : Field} {fs : List Field}

theorem field (hx : Appends x f.encoding) (hy : Appends y (encodeFields fs)) :
    Appends (do x; y) (encodeFields (f :: fs)) := by
  rw [encodeFields_cons]
  exact hx.seq hy

theorem lastField (hx : Appends x f.encoding) : Appends x (encodeFields [f]) := by
  rwa [encodeFields_cons, encodeFields_nil, List.append_nil]

end Appends

namespace Parses

theorem uint (T : UIntTy) : Parses (readUInt T) fun n => (Field.number T n).Reads := by
  intro b n r
  rw [readUInt_eq_ok_iff, toBigCompact_eq]
  constructor
  · rintro (rfl | ⟨h0, rfl⟩)
    · exact ⟨_, .inl rfl, rfl⟩
    · exact ⟨[0], .inr ⟨h0, rfl⟩, rfl⟩
  · rintro ⟨p, rfl | ⟨h0, rfl⟩, rfl⟩
    · exact .inl rfl
    · exact .inr ⟨h0, rfl⟩

theorem array (n : Nat) : Parses (readArray n) fun a => (Field.string a.bytes).Reads := by
  intro b a r
  rw [readArray_eq_ok_iff]
  exact Parses.bytes b a.bytes r

theorem bool : Parses readBool fun v => (Field.flag v).Reads := by
  intro b v r
  rw [readBool_eq_ok_iff]
  constructor
  · rintro ⟨s, hread, hs⟩
    obtain ⟨-, rfl⟩ := readBytes_eq_ok_iff.mp hread
    rcases hs with rfl | ⟨hv, rfl⟩
    · exact ⟨_, .inl rfl, rfl⟩
    · exact ⟨_, .inr ⟨hv, rfl⟩, rfl⟩
  · rintro ⟨p, rfl | ⟨hv, rfl⟩, rfl⟩
    · exact ⟨_, readBytes_eq_ok_iff.mpr ⟨by cases v <;> decide, rfl⟩, .inl rfl⟩
    · exact ⟨[0], readBytes_eq_ok_iff.mpr ⟨by decide, rfl⟩, .inr ⟨hv, rfl⟩⟩

/-- The next fields of an object: what was read is the part `g` of the object, and the rest of it follows. -/
theorem fields {x : EStateM ε RlpDecoder α} {F : α → List Field} {V : α → Prop} {fs : β → List Field} {P : β → Prop}
    {k : α → EStateM ε RlpDecoder β} (hx : Parses x fun a p => V a ∧ Concat Field.Reads (F a) p) (g : β → α)
    (hV : ∀ v, P v → V (g v))
    (hk : ∀ a, V a → Parses (k a) fun v p => (g v = a ∧ P v) ∧ Concat Field.Reads (fs v) p) :
    Parses (x >>= k) fun v p => P v ∧ Concat Field.Reads (F (g v) ++ fs v) p := by
  apply (hx.bind fun a q hq => hk a hq.1).congr
  intro v p
  rw [concat_append]
  constructor
  · rintro ⟨a, q, r, ⟨-, hq⟩, ⟨⟨rfl, hP⟩, hr⟩, rfl⟩
    exact ⟨hP, q, r, hq, hr, rfl⟩
  · rintro ⟨hP, q, r, hq, hr, rfl⟩
    exact ⟨g v, q, r, ⟨hV v hP, hq⟩, ⟨⟨rfl, hP⟩, hr⟩, rfl⟩

theorem field {x : EStateM ε RlpDecoder α} {F : α → Field} {fs : β → List Field} {P : β → Prop}
    {k : α → EStateM ε RlpDecoder β} (hx : Parses x fun a => (F a).Reads) (g : β → α)
    (hk : ∀ a, Parses (k a) fun v p => (g v = a ∧ P v) ∧ Concat Field.Reads (fs v) p) :
    Parses (x >>= k) fun v p => P v ∧ Concat Field.Reads (F (g v) :: fs v) p := by
  have hone : Parses x fun a p => True ∧ Concat Field.Reads [F a] p :=
    hx.congr fun a p => by rw [concat_singleton, true_and]
  exact hone.fields g (fun _ _ => trivial) fun a _ => hk a

theorem done {w : β} {P : β → Prop} (h : ∀ v, P v ↔ v = w) :
    Parses (Pure.pure w : EStateM ε RlpDecoder β) fun v p => P v ∧ Concat Field.Reads [] p := by
  apply (Parses.pure w).congr
  intro v p
  rw [h, concat_nil]

theorem exactList {x : DecodeM α} (fs : α → List Field) (hx : Parses x fun v p => True ∧ Concat Field.Reads (fs v) p)
    (hexact : ∀ v, ∀ f ∈ fs v, f.Exact) :
    Parses (readList fun _ => x) fun v => (Field.list (encodeFields (fs v))).Reads := by
  apply hx.list.congr
  intro v p
  constructor
  · rintro ⟨q, ⟨-, hq⟩, hsize, rfl⟩
    obtain rfl := eq_encodeFields (hexact v) hq
    exact ⟨hsize, rfl⟩
  · rintro ⟨hsize, rfl⟩
    exact ⟨_, ⟨trivial, fieldsRead_encodeFields hsize⟩, hsize, rfl⟩

theorem exactListOf {x : DecodeM α} {F : α → Field} (hx : Parses x fun v => (F v).Reads) (hexact : ∀ v, (F v).Exact) :
    Parses (readListOf x) fun vs => (Field.list (encodeFields (vs.map F))).Reads := by
  apply (hx.listOf fun v p h => h.isItem.ne_nil).congr
  intro vs p
  simp only [ListOf, ← concat_map]
  constructor
  · rintro ⟨q, hq, hsize, rfl⟩
    obtain rfl := eq_encodeFields (List.forall_mem_map.mpr fun v _ => hexact v) hq
    exact ⟨hsize, rfl⟩
  · rintro ⟨hsize, rfl⟩
    exact ⟨_, fieldsRead_encodeFields hsize, hsize, rfl⟩

end Parses

end DevP2P.Rlp
