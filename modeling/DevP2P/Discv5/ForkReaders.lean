import DevP2P.Discv4.Packets
import DevP2P.Discv5.EnrSignature
import DevP2P.Rlp.Fields

/-!
# The fork id of a node record, read by both protocols

`discv4_enr_response::ParseEthForkId` and `EnrParser::decode_rlp` look for a fork id in the entry `eth` of a record.
Both accept the same bytes for it, but not in the same place: the first one reads them from the value on, which has to
be a list, the second one inside the value, which has to be a string, as all the values in front of it.

* `NodeRecord` : a well-formed record, with distinct keys and any items as values;
* `BeginsForkId` : the bytes both accept; `readForkId_eq_ok_iff`, `decodeEthEntry_eq_ok_iff`;
* `parseEthForkId_encode_iff`, `decodeRlp_encode_iff` : what the readers find in a record, `ListFork` and `StringFork`;
* `fork_readers_agree_iff` : they agree on the records in which neither of them finds a fork id, and on no others.
-/

namespace DevP2P.Discv5
open DevP2P.Lib DevP2P.Rlp Stateful

/-! ## Well-formed records -/

def entryItems (es : List (Bytes × Item)) : List Item := es.flatMap fun e => [.string e.1, e.2]

def recordItems (sig : FixedBytes kEnrSigBytes) (seq : UIntTy.Val .uint64) (entries : List (Bytes × Item)) :
    List Item :=
  .string sig.bytes :: .string (beBytes seq.toNat) :: entryItems entries

structure NodeRecord where
  sig : FixedBytes kEnrSigBytes
  seq : UIntTy.Val .uint64
  entries : List (Bytes × Item)
  nodup : (entries.map Prod.fst).Nodup
  pubkey : FixedBytes kCompressedKeyBytes
  pubkey_ne_zero : pubkey ≠ .zero _
  mem_pubkey : (kEnrKeySecp256k1, .string pubkey.bytes) ∈ entries
  length_lt : (Item.list (recordItems sig seq entries)).encode.length < 2 ^ 64

namespace NodeRecord

variable (r : NodeRecord)

def encode : Bytes := (Item.list (recordItems r.sig r.seq r.entries)).encode

/-- The entries up to the first one whose value is a list. -/
def leading : List (Bytes × Bytes) := EnrParser.pairsOf (entryItems r.entries)

theorem value_unique {key : Bytes} {x y : Item} (hx : (key, x) ∈ r.entries) (hy : (key, y) ∈ r.entries) : x = y :=
  (Prod.mk.inj (List.inj_on_of_nodup_map r.nodup hx hy rfl)).2

end NodeRecord

theorem entryItems_cons (e : Bytes × Item) (es : List (Bytes × Item)) :
    entryItems (e :: es) = .string e.1 :: e.2 :: entryItems es := rfl

theorem encode_ne_nil (item : Item) : item.encode ≠ [] := by
  cases item with
  | string s => rw [Item.encode_string]; exact encodeString_ne_nil s
  | list items => rw [Item.encode_list]; exact encodeList_ne_nil _

theorem isItem_encode {item : Item} (h : item.encode.length < kSizeModulus) : IsItem item.encode := by
  cases item with
  | string s =>
      rw [Item.encode_string] at h ⊢
      exact isItem_encodeString (lt_of_le_of_lt (length_le_encodeString s) h)
  | list items =>
      rw [Item.encode_list] at h ⊢
      exact isItem_encodeList (lt_of_le_of_lt (length_le_encodeList _) h)

theorem length_encode_le {item : Item} {items : List Item} (h : item ∈ items) :
    item.encode.length ≤ (encodeAll items).length := by
  induction items with
  | nil => cases h
  | cons first items ih =>
      rw [encodeAll_cons, List.length_append]
      rcases List.mem_cons.mp h with rfl | h
      · omega
      · have := ih h
        omega

theorem mem_entryItems {e : Bytes × Item} {es : List (Bytes × Item)} (h : e ∈ es) : e.2 ∈ entryItems es :=
  List.mem_flatMap.mpr ⟨e, h, by simp⟩

theorem length_entries_le (es : List (Bytes × Item)) : es.length ≤ (encodeAll (entryItems es)).length := by
  induction es with
  | nil => exact Nat.zero_le _
  | cons e es ih =>
      have hpos := length_encodeString_pos e.1
      rw [entryItems_cons, encodeAll_cons, encodeAll_cons, Item.encode_string]
      simp only [List.length_append, List.length_cons]
      omega

theorem mem_entries_of_pairsOf {es : List (Bytes × Item)} {key val : Bytes}
    (h : (key, val) ∈ EnrParser.pairsOf (entryItems es)) : (key, .string val) ∈ es := by
  induction es with
  | nil => cases h
  | cons e es ih =>
      obtain ⟨k, v⟩ := e
      cases v with
      | list items => cases h
      | string s =>
          rw [entryItems_cons, EnrParser.pairsOf] at h
          rcases List.mem_cons.mp h with heq | h
          · cases heq
            exact List.mem_cons_self ..
          · exact List.mem_cons_of_mem _ (ih h)

/-! ## The bytes of a fork id -/

/-- A fork id in front of `v`: the headers of two lists that fit, a string of four bytes and a number. Where the lists
end is not looked at. -/
def BeginsForkId (v : Bytes) (f : ForkId) : Prop :=
  ∃ n m w p r, n < kSizeModulus ∧ n ≤ (headerBytes true m ++ w).length ∧
    v = headerBytes true n ++ (headerBytes true m ++ w) ∧
    m < kSizeModulus ∧ m ≤ w.length ∧ (Field.number .uint64 f.next).Reads p ∧ w = encodeString f.hash.bytes ++ (p ++ r)

/-- The same fork id, as the other protocol keeps it. -/
def ForkId.toDiscv4 (f : ForkId) : Discv4.ForkId := ⟨f.hash, f.next⟩

theorem openList_eq_ok_iff {v r : ByteView} {n : Nat} :
    Discv4.openList ⟨v⟩ = .ok n ⟨r⟩ ↔ n < kSizeModulus ∧ n ≤ r.length ∧ v = headerBytes true n ++ r := by
  unfold Discv4.openList
  rw [get_bind, ← readListHeaderBytes_eq_ok_iff]
  constructor
  · intro h
    obtain ⟨isList, d, hlist, h⟩ := bind_eq_ok.mp h
    obtain ⟨-, rfl⟩ := lift_eq_ok.mp hlist
    exact (rejectIf_bind_eq_ok.mp h).2
  · intro h
    obtain ⟨hn, -, rfl⟩ := readListHeaderBytes_eq_ok_iff.mp h
    rw [isList_headerBytes hn, bind_of_ok (lift_ok true _),
      rejectIf_bind_of_not (by simp)]
    exact h

theorem readForkId_eq_ok_iff {v : ByteView} {f : ForkId} :
    (∃ d, Discv4.readForkId ⟨v⟩ = .ok f.toDiscv4 d) ↔ BeginsForkId v f := by
  unfold Discv4.readForkId
  constructor
  · intro h
    obtain ⟨d, h⟩ := h
    obtain ⟨n, ⟨v1⟩, h1, h⟩ := bind_eq_ok.mp h
    obtain ⟨m, ⟨w⟩, h2, h⟩ := bind_eq_ok.mp h
    obtain ⟨hash, q, w1, hhash, hw, h⟩ := (Parses.array 4).bind_eq_ok.mp h
    obtain ⟨next, p, r, hnext, hw1, h⟩ := (Parses.uint .uint64).bind_eq_ok.mp h
    obtain ⟨hn, hle, hv⟩ := openList_eq_ok_iff.mp h1
    obtain ⟨hm, hlm, hv1⟩ := openList_eq_ok_iff.mp h2
    obtain ⟨hf, -⟩ := pure_eq_ok.mp h
    obtain ⟨rfl, rfl⟩ := Discv4.ForkId.mk.inj hf
    exact ⟨n, m, w, p, r, hn, hv1 ▸ hle, by rw [hv, hv1], hm, hlm, hnext, by rw [hw, hw1, hhash.2]⟩
  · intro h
    obtain ⟨n, m, w, p, r, hn, hle, rfl, hm, hlm, hnext, hw⟩ := h
    have hhash : (Field.string f.hash.bytes).Reads (encodeString f.hash.bytes) :=
      ⟨by rw [f.hash.size_eq]; decide, rfl⟩
    refine ⟨⟨r⟩, ?_⟩
    rw [bind_of_ok (openList_eq_ok_iff.mpr ⟨hn, hle, rfl⟩),
      bind_of_ok (openList_eq_ok_iff.mpr ⟨hm, hlm, rfl⟩), hw,
      bind_of_ok ((Parses.array 4).run hhash _), bind_of_ok ((Parses.uint .uint64).run hnext _)]
    rfl

theorem decodeEthEntry_eq_ok_iff {v : Bytes} {f : ForkId} :
    EnrParser.decodeEthEntry v = .ok f ↔ BeginsForkId v f := by
  unfold EnrParser.decodeEthEntry
  constructor
  · intro h
    obtain ⟨-, h⟩ := Outcome.rejectIf_bind_eq_ok.mp h
    obtain ⟨d, h⟩ := outcome_eq_ok.mp h
    obtain ⟨n, ⟨v1⟩, h1, h⟩ := bind_eq_ok.mp h
    obtain ⟨m, ⟨w⟩, h2, h⟩ := bind_eq_ok.mp h
    obtain ⟨hash, q, w1, hhash, hw, h⟩ := (Parses.bytes.withError _).bind_eq_ok.mp h
    obtain ⟨hsize, h⟩ := rejectIf_bind_eq_ok.mp h
    obtain ⟨next, p, r, hnext, hw1, h⟩ := ((Parses.uint .uint64).withError _).bind_eq_ok.mp h
    obtain ⟨hn, hle, hv⟩ := EnrParser.enterList_eq_ok_iff.mp h1
    obtain ⟨hm, hlm, hv1⟩ := EnrParser.enterList_eq_ok_iff.mp h2
    obtain ⟨rfl, -⟩ := pure_eq_ok.mp h
    refine ⟨n, m, w, p, r, hn, hv1 ▸ hle, by rw [hv, hv1], hm, hlm, hnext, ?_⟩
    rw [hw, hw1, hhash.2, FixedBytes.bytes_load_self (not_not.mp hsize)]
  · intro h
    obtain ⟨n, m, w, p, r, hn, hle, rfl, hm, hlm, hnext, hw⟩ := h
    have hsize : f.hash.bytes.length < kSizeModulus := by rw [f.hash.size_eq]; decide
    rw [Outcome.rejectIf_bind_of_not (by simp [headerBytes_ne_nil])]
    refine outcome_eq_ok.mpr ⟨⟨r⟩, ?_⟩
    rw [bind_of_ok (EnrParser.enterList_eq_ok_iff.mpr ⟨hn, hle, rfl⟩),
      bind_of_ok (EnrParser.enterList_eq_ok_iff.mpr ⟨hm, hlm, rfl⟩), hw,
      bind_of_ok ((Parses.bytes.withError _).run ⟨hsize, rfl⟩ _),
      rejectIf_bind_of_not (by simp), bind_of_ok (((Parses.uint .uint64).withError _).run hnext _),
      FixedBytes.load_bytes]
    rfl

theorem not_beginsForkId_encodeString {s t : Bytes} (hs : s.length < kSizeModulus) (f : ForkId) :
    ¬ BeginsForkId (encodeString s ++ t) f := by
  intro h
  obtain ⟨n, m, w, p, r, hn, hle, hv, -⟩ := h
  obtain ⟨hdr, hc, hl, -⟩ := canonicalHeader_encodeString hs t
  have hc' : CanonicalHeader _ ⟨true, _, _⟩ (headerBytes true m ++ w) := .header hn hle nofun
  rw [hv] at hc
  rw [hc.header_unique hc'] at hl
  cases hl

/-! ## `ParseEthForkId` -/

theorem exists_first_cons_iff {κ α : Type} {k key : κ} {val : α} {es : List (κ × α)} {P : α → List (κ × α) → Prop} :
    (∃ pre value post, (key, val) :: es = pre ++ (k, value) :: post ∧ k ∉ pre.map Prod.fst ∧ P value post) ↔
      (key = k ∧ P val es) ∨
      (key ≠ k ∧ ∃ pre value post, es = pre ++ (k, value) :: post ∧ k ∉ pre.map Prod.fst ∧ P value post) := by
  constructor
  · intro h
    obtain ⟨pre, value, post, hes, hnot, hP⟩ := h
    cases pre with
    | nil =>
        cases hes
        exact .inl ⟨rfl, hP⟩
    | cons e pre =>
        cases hes
        rw [List.map_cons, List.mem_cons, not_or] at hnot
        exact .inr ⟨Ne.symm hnot.1, pre, value, post, rfl, hnot.2, hP⟩
  · intro h
    rcases h with ⟨rfl, hP⟩ | ⟨hne, pre, value, post, rfl, hnot, hP⟩
    · exact ⟨[], val, es, rfl, List.not_mem_nil, hP⟩
    · refine ⟨(key, val) :: pre, value, post, rfl, ?_, hP⟩
      rw [List.map_cons, List.mem_cons, not_or]
      exact ⟨Ne.symm hne, hnot⟩

theorem findForkId_eq_ok_iff {es : List (Bytes × Item)} {fuel : Nat} {f : Discv4.ForkId} {d : RlpDecoder}
    (hfuel : es.length ≤ fuel) (hlen : (encodeAll (entryItems es)).length < kSizeModulus) :
    Discv4.findForkId fuel ⟨encodeAll (entryItems es)⟩ = .ok f d ↔
      ∃ pre value post, es = pre ++ (kEnrKeyEth, value) :: post ∧ kEnrKeyEth ∉ pre.map Prod.fst ∧
        Discv4.readForkId ⟨encodeAll (value :: entryItems post)⟩ = .ok f d := by
  induction es generalizing fuel with
  | nil =>
      have hnone : Discv4.findForkId fuel ⟨encodeAll (entryItems [])⟩ ≠ .ok f d := by
        cases fuel with
        | zero => exact nofun
        | succ fuel => exact nofun
      refine ⟨fun h => absurd h hnone, fun h => ?_⟩
      obtain ⟨pre, value, post, hes, -⟩ := h
      simp at hes
  | cons e es ih =>
      obtain ⟨key, val⟩ := e
      obtain ⟨fuel, rfl⟩ := Nat.exists_eq_succ_of_ne_zero (show fuel ≠ 0 by simp at hfuel; omega)
      have hkey : readBytes ⟨encodeAll (.string key :: val :: entryItems es)⟩ =
          .ok key ⟨encodeAll (val :: entryItems es)⟩ :=
        EnrParser.readBytes_string hlen
      have hunfinished : (RlpDecoder.mk (encodeAll (entryItems ((key, val) :: es)))).isFinished = false := by
        simp [RlpDecoder.isFinished, entryItems_cons, encodeString_ne_nil]
      rw [Discv4.findForkId, get_bind, hunfinished, if_neg Bool.false_ne_true, entryItems_cons,
        bind_of_ok hkey, exists_first_cons_iff]
      by_cases hk : key = kEnrKeyEth
      · rw [if_pos (show key = Discv4.kEthKey from hk)]
        constructor
        · exact fun h => .inl ⟨hk, h⟩
        · exact fun h => h.elim And.right fun hne => absurd hk hne.1
      · simp only [entryItems_cons, encodeAll_cons, List.length_append] at hlen
        have hskip : skipItem ⟨encodeAll (val :: entryItems es)⟩ = .ok () ⟨encodeAll (entryItems es)⟩ :=
          skipItem_eq_ok_iff.mpr ⟨val.encode, isItem_encode (by omega), encodeAll_cons ..⟩
        rw [if_neg (show key ≠ Discv4.kEthKey from hk), bind_of_ok hskip,
          ih (by simp at hfuel; omega) (by omega)]
        constructor
        · exact fun h => .inr ⟨hk, h⟩
        · exact fun h => h.elim (fun heq => absurd heq.1 hk) And.right

namespace NodeRecord

variable (r : NodeRecord)

/-- The value of `eth` is a list, and the record goes on from there with a fork id. -/
def ListFork (f : ForkId) : Prop :=
  ∃ pre items post, r.entries = pre ++ (kEnrKeyEth, .list items) :: post ∧
    BeginsForkId (encodeAll (.list items :: entryItems post)) f

/-- The values of `secp256k1` and `eth` and all those in front of them are strings, and that of `eth` holds a fork
id. -/
def StringFork (f : ForkId) : Prop :=
  (kEnrKeySecp256k1, r.pubkey.bytes) ∈ r.leading ∧ ∃ val, (kEnrKeyEth, val) ∈ r.leading ∧ BeginsForkId val f

theorem length_payload_lt : (encodeAll (recordItems r.sig r.seq r.entries)).length < kSizeModulus := by
  have h := r.length_lt
  rw [Item.encode_list] at h
  exact lt_of_le_of_lt (length_le_encodeList _) h

theorem length_entryItems_lt : (encodeAll (entryItems r.entries)).length < kSizeModulus := by
  have h := r.length_payload_lt
  simp only [recordItems, encodeAll_cons, List.length_append] at h
  omega

/-- **What `ParseEthForkId` finds in a record.** -/
theorem parseEthForkId_encode_iff (f : ForkId) :
    Discv4.parseEthForkId r.encode = .ok f.toDiscv4 ↔ r.ListFork f := by
  have hopen : Discv4.openList ⟨r.encode⟩ = .ok _ ⟨encodeAll (recordItems r.sig r.seq r.entries)⟩ :=
    openList_eq_ok_iff.mpr ⟨r.length_payload_lt, le_rfl, by rw [encode, Item.encode_list, encodeList]⟩
  have hlen := r.length_payload_lt
  simp only [recordItems, encodeAll_cons, List.length_append] at hlen
  have hsig : skipItem ⟨encodeAll (recordItems r.sig r.seq r.entries)⟩
      = .ok () ⟨encodeAll (.string (beBytes r.seq.toNat) :: entryItems r.entries)⟩ :=
    skipItem_eq_ok_iff.mpr ⟨_, isItem_encode (show (Item.string r.sig.bytes).encode.length < kSizeModulus by omega),
      encodeAll_cons ..⟩
  have hseq : skipItem ⟨encodeAll (.string (beBytes r.seq.toNat) :: entryItems r.entries)⟩
      = .ok () ⟨encodeAll (entryItems r.entries)⟩ :=
    skipItem_eq_ok_iff.mpr ⟨_, isItem_encode (show (Item.string (beBytes r.seq.toNat)).encode.length <
      kSizeModulus by omega),
      encodeAll_cons ..⟩
  unfold Discv4.parseEthForkId Discv4.readEthForkId
  rw [Outcome.rejectIf_bind_of_not (show r.encode ≠ [] from encode_ne_nil _), outcome_eq_ok, bind_of_ok hopen,
    bind_of_ok hsig, bind_of_ok hseq, get_bind]
  simp only [findForkId_eq_ok_iff (length_entries_le r.entries) r.length_entryItems_lt]
  constructor
  · intro h
    obtain ⟨d, pre, value, post, hes, -, h⟩ := h
    have hbegin := readForkId_eq_ok_iff.mp ⟨d, h⟩
    cases value with
    | string s =>
        have hmem : (kEnrKeyEth, Item.string s) ∈ r.entries := by
          rw [hes]
          exact List.mem_append_right pre (List.mem_cons_self ..)
        have hs := lt_of_le_of_lt (length_encode_le (mem_entryItems hmem)) r.length_entryItems_lt
        rw [Item.encode_string] at hs
        replace hs := lt_of_le_of_lt (length_le_encodeString s) hs
        rw [encodeAll_cons, Item.encode_string] at hbegin
        exact absurd hbegin (not_beginsForkId_encodeString hs f)
    | list items => exact ⟨pre, items, post, hes, hbegin⟩
  · intro h
    obtain ⟨pre, items, post, hes, h⟩ := h
    obtain ⟨d, hd⟩ := readForkId_eq_ok_iff.mpr h
    refine ⟨d, pre, .list items, post, hes, ?_, hd⟩
    have hnodup := r.nodup
    rw [hes, List.map_append, List.map_cons] at hnodup
    exact fun hmem => (List.nodup_append.mp hnodup).2.2 _ hmem _ (List.mem_cons_self ..) rfl

/-! ## `decode_rlp` -/

variable (env : EnrPrimitives)

theorem leading_unique {key x y : Bytes} (hx : (key, x) ∈ r.leading) (hy : (key, y) ∈ r.leading) : x = y :=
  Item.string.inj (r.value_unique (mem_entries_of_pairsOf hx) (mem_entries_of_pairsOf hy))

/-- The keys are distinct, so that the last update of a field is the only one. -/
theorem lastWrite_leading_eq_some_iff {s : Slot} {u : Update} :
    lastWrite Update.slot s (EnrParser.updatesOf env r.leading) = some u ↔
      u.slot = s ∧ ∃ val, (s.key, val) ∈ r.leading ∧ EnrParser.updateOf env s.key val = some u := by
  have hentry {w : Update} (h : lastWrite Update.slot s (EnrParser.updatesOf env r.leading) = some w) :
      w.slot = s ∧ ∃ val, (s.key, val) ∈ r.leading ∧ EnrParser.updateOf env s.key val = some w := by
    obtain ⟨hmem, hs⟩ := mem_of_lastWrite h
    obtain ⟨⟨key, val⟩, he, hu⟩ := (EnrParser.mem_updatesOf env).mp hmem
    have hkey := EnrParser.key_of_updateOf env hu
    rw [hs] at hkey
    subst hkey
    exact ⟨hs, val, he, hu⟩
  refine ⟨hentry, fun h => ?_⟩
  obtain ⟨hs, val, he, hu⟩ := h
  obtain ⟨w, hw⟩ : ∃ w, lastWrite Update.slot s (EnrParser.updatesOf env r.leading) = some w :=
    exists_lastWrite ((EnrParser.mem_updatesOf env).mpr ⟨_, he, hu⟩) hs
  obtain ⟨-, val', he', hu'⟩ := hentry hw
  rw [r.leading_unique he' he, hu] at hu'
  rw [hw, hu']

section Loop

variable {raw content : Bytes} {seq : UIntTy.Val .uint64} {sig : Bytes} {kv : ByteView} (hkv : entriesOf kv = r.leading)
include hkv

theorem ethForkId_loopRecord {f : ForkId} :
    (EnrParser.loopRecord env raw seq sig content kv).ethForkId = some f ↔
      ∃ val, (kEnrKeyEth, val) ∈ r.leading ∧ BeginsForkId val f := by
  have h := EnrParser.value_loopRecord env raw seq sig content kv .eth
  rw [hkv, show (EnrParser.startRecord raw seq sig content).value .eth = none from rfl, Option.or_none] at h
  have hmap : (EnrParser.loopRecord env raw seq sig content kv).ethForkId = some f ↔
      lastWrite Update.slot .eth (EnrParser.updatesOf env r.leading) = some (.eth f) := by
    rw [← h, EnrRecord.value, Option.map_eq_some_iff]
    constructor
    · intro hf
      exact ⟨f, hf, rfl⟩
    · intro hf
      obtain ⟨g, hg, heq⟩ := hf
      rw [hg, Update.eth.inj heq]
  have hupdate (val : Bytes) : EnrParser.updateOf env kEnrKeyEth val = some (.eth f) ↔ BeginsForkId val f := by
    rw [show EnrParser.updateOf env kEnrKeyEth val = (EnrParser.decodeEthEntry val).toOption.map .eth from rfl,
      ← decodeEthEntry_eq_ok_iff]
    cases EnrParser.decodeEthEntry val with
    | error e => simp [Except.toOption]
    | ok g => simp [Except.toOption]
  rw [hmap, r.lastWrite_leading_eq_some_iff env]
  constructor
  · intro h
    obtain ⟨-, val, he, hu⟩ := h
    exact ⟨val, he, (hupdate val).mp hu⟩
  · intro h
    obtain ⟨val, he, hf⟩ := h
    exact ⟨rfl, val, he, (hupdate val).mpr hf⟩

theorem compressedPubkey_loopRecord_ne_zero :
    (EnrParser.loopRecord env raw seq sig content kv).compressedPubkey ≠ .zero _ ↔
      (kEnrKeySecp256k1, r.pubkey.bytes) ∈ r.leading := by
  have hupdate : EnrParser.updateOf env kEnrKeySecp256k1 r.pubkey.bytes = some (.pubkey r.pubkey) := by
    rw [show EnrParser.updateOf env kEnrKeySecp256k1 r.pubkey.bytes
      = if r.pubkey.bytes.length = kCompressedKeyBytes then some
      (.pubkey (FixedBytes.load _ r.pubkey.bytes)) else none from rfl,
      if_pos r.pubkey.size_eq, FixedBytes.load_bytes]
  rw [EnrParser.compressedPubkey_loopRecord, hkv, EnrParser.lastPubkey]
  constructor
  · intro h
    cases hw : lastWrite Update.slot .pubkey (EnrParser.updatesOf env r.leading) with
    | none =>
        rw [hw] at h
        exact absurd rfl h
    | some u =>
        obtain ⟨-, val, he, -⟩ := (r.lastWrite_leading_eq_some_iff env).mp hw
        have hval := r.value_unique (mem_entries_of_pairsOf he) r.mem_pubkey
        rwa [← Item.string.inj hval]
  · intro he
    have hw : lastWrite Update.slot .pubkey (EnrParser.updatesOf env r.leading) = some (.pubkey r.pubkey) :=
      (r.lastWrite_leading_eq_some_iff env).mpr ⟨rfl, _, he, hupdate⟩
    rw [hw]
    exact r.pubkey_ne_zero

end Loop

def decoded : EnrRecord :=
  EnrParser.loopRecord env r.encode r.seq r.sig.bytes
    (encodeList (encodeAll (.string (beBytes r.seq.toNat) :: entryItems r.entries))) (encodeAll (entryItems r.entries))

theorem entriesOf_entryItems : entriesOf (encodeAll (entryItems r.entries)) = r.leading :=
  EnrParser.entriesOf_encodeAll _ r.length_entryItems_lt

/-- `decode_rlp` accepts a record if no list stands in front of its key. -/
theorem decodeRlp_encode_eq_ok_iff {record : EnrRecord} :
    EnrParser.decodeRlp env r.encode = .ok record ↔
      record = r.decoded env ∧ (kEnrKeySecp256k1, r.pubkey.bytes) ∈ r.leading := by
  have hp := r.length_payload_lt
  rw [recordItems, encodeAll_cons, Item.encode_string] at hp
  have hraw : r.encode = encodeList (encodeString r.sig.bytes
      ++ encodeAll (.string (beBytes r.seq.toNat) :: entryItems r.entries)) ++ [] := by
    rw [encode, recordItems, Item.encode_list, encodeAll_cons, Item.encode_string, List.append_nil]
  have hseq : readUInt .uint64 ⟨encodeAll (.string (beBytes r.seq.toNat) :: entryItems r.entries) ++ []⟩
      = .ok r.seq ⟨encodeAll (entryItems r.entries)⟩ := by
    rw [List.append_nil, encodeAll_cons, Item.encode_string]
    exact (Parses.uint .uint64).run (.inl rfl) _
  have hkey : (r.decoded env).compressedPubkey ≠ .zero _ ↔ (kEnrKeySecp256k1, r.pubkey.bytes) ∈ r.leading :=
    r.compressedPubkey_loopRecord_ne_zero env r.entriesOf_entryItems
  rw [hraw, EnrParser.decodeRlp_list_eq_ok_iff hp, ← hraw]
  constructor
  · intro h
    obtain ⟨-, -, seq, kv, hread, rfl, hne⟩ := h
    rw [hseq] at hread
    cases hread
    exact ⟨rfl, hkey.mp hne⟩
  · intro h
    obtain ⟨rfl, hpub⟩ := h
    exact ⟨r.sig.size_eq, by simp [encodeString_ne_nil], r.seq, _, hseq, rfl, hkey.mpr hpub⟩

/-- **What `decode_rlp` finds in a record.** -/
theorem decodeRlp_encode_iff (f : ForkId) :
    (∃ record, EnrParser.decodeRlp env r.encode = .ok record ∧ record.ethForkId = some f) ↔ r.StringFork f := by
  simp only [decodeRlp_encode_eq_ok_iff]
  constructor
  · intro h
    obtain ⟨record, ⟨rfl, hpub⟩, hf⟩ := h
    exact ⟨hpub, (r.ethForkId_loopRecord env r.entriesOf_entryItems).mp hf⟩
  · intro h
    obtain ⟨hpub, hf⟩ := h
    exact ⟨_, ⟨rfl, hpub⟩, (r.ethForkId_loopRecord env r.entriesOf_entryItems).mpr hf⟩

/-! ## The two readers -/

/-- The value of `eth` is a list or a string, not both. -/
theorem not_stringFork_of_listFork {f g : ForkId} (hf : r.ListFork f) : ¬ r.StringFork g := by
  intro hg
  obtain ⟨pre, items, post, hes, -⟩ := hf
  obtain ⟨-, val, hval, -⟩ := hg
  have hlist : (kEnrKeyEth, Item.list items) ∈ r.entries := by
    rw [hes]
    exact List.mem_append_right pre (List.mem_cons_self ..)
  cases r.value_unique hlist (mem_entries_of_pairsOf hval)

/-- **The readers agree on the records in which neither finds a fork id, and on no others.** -/
theorem fork_readers_agree_iff :
    (∀ f : ForkId, Discv4.parseEthForkId r.encode = .ok f.toDiscv4 ↔
      ∃ record, EnrParser.decodeRlp env r.encode = .ok record ∧ record.ethForkId = some f) ↔
    ∀ f, ¬ r.ListFork f ∧ ¬ r.StringFork f := by
  simp only [parseEthForkId_encode_iff, decodeRlp_encode_iff]
  constructor
  · intro h f
    refine ⟨fun hf => r.not_stringFork_of_listFork hf ((h f).mp hf), fun hf => ?_⟩
    exact r.not_stringFork_of_listFork ((h f).mpr hf) hf
  · intro h f
    exact ⟨fun hf => absurd hf (h f).1, fun hf => absurd hf (h f).2⟩

theorem nodeKey_ne_zero : FixedBytes.load 33 EnrParser.nodeKey ≠ .zero _ := by decide

/-- A record as clients sign it, with the fork id as a list. -/
def sampleEthRecord : NodeRecord where
  sig := FixedBytes.load _ EnrParser.nodeSig
  seq := 1
  entries :=
    [(kEnrKeyEth, .list [.list [.string [0xde, 0xad, 0xbe, 0xef], .string [0xbc, 0x61, 0x4e]]]),
      (kEnrKeyId, .string (ascii ['v', '4'])), (kEnrKeySecp256k1, .string EnrParser.nodeKey)]
  nodup := by decide
  pubkey := FixedBytes.load _ EnrParser.nodeKey
  pubkey_ne_zero := nodeKey_ne_zero
  mem_pubkey := by simp [FixedBytes.bytes_load_self (show EnrParser.nodeKey.length = 33 by decide)]
  length_lt := by decide +kernel

/-- **One reader returns the fork id of a record, the other one rejects the record.** -/
theorem list_fork_id_read_once :
    Discv4.parseEthForkId sampleEthRecord.encode = .ok ⟨FixedBytes.load _ [0xde, 0xad, 0xbe, 0xef], 12345678⟩ ∧
    EnrParser.decodeRlp EnrParser.enrEnv sampleEthRecord.encode = .error (.error .kEnrMissingSecp256k1Key) := by
  constructor
  · decide +kernel
  · decide +kernel

end NodeRecord

end DevP2P.Discv5
