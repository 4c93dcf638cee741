import DevP2P.Discv5.ForkReaders

/-!
# The order of the entries of a node record

The key/value loop of `decode_rlp` leaves at the first value that is not a string and keeps what it has read so far. A
field is thus what its own entry makes of it if that entry stands in front of every list, and its default otherwise.

* `NodeRecord.FieldsRead` : the known fields are what their own entries make of them;
* `value_decoded_of_mem`, `value_decoded_of_not_mem` : a field after the loop;
* `fieldsRead_decoded_iff` : when the fields of a record are read, in the order it has;
* `entries_independent_iff` : they are read in every order exactly if no value is a list.
-/

namespace DevP2P.Discv5
open DevP2P.Lib DevP2P.Rlp EnrParser

/-- The fields that are set from one entry of the record each, `eth` apart. -/
def knownFields : List Slot := [.id, .pubkey, .ip, .ip6, .tcp, .udp, .tcp6, .udp6]

theorem ofKey_key : ∀ s ∈ knownFields, Slot.ofKey s.key = s := by decide

namespace NodeRecord

variable (env : EnrPrimitives) (r : NodeRecord)

/-- Every known field is what its own entry, taken alone, makes of an empty record; a field without an entry, or with a
list as the value of its entry, has its default. -/
def FieldsRead (record : EnrRecord) : Prop :=
  ∀ s ∈ knownFields,
    (∀ val, (s.key, .string val) ∈ r.entries → record.value s = (applyEntry env {} s.key val).value s) ∧
    ((∀ val, (s.key, .string val) ∉ r.entries) → record.value s = ({} : EnrRecord).value s)

/-! ## A field after the loop -/

section Loop

variable {s : Slot} (hs : s ∈ knownFields)
include hs

theorem value_decoded :
    (r.decoded env).value s = (lastWrite Update.slot s (updatesOf env r.leading)).or (({} : EnrRecord).value s) := by
  unfold decoded
  have hne (key : Bytes) : s ≠ .extra key := by
    rintro rfl
    simp [knownFields] at hs
  rw [value_loopRecord, entriesOf_entryItems, value_startRecord (hne _) (hne _)]

theorem value_decoded_of_mem {val : Bytes} (h : (s.key, val) ∈ r.leading) :
    (r.decoded env).value s = (applyEntry env {} s.key val).value s := by
  rw [r.value_decoded env hs, applyEntry_eq]
  cases hu : updateOf env s.key val with
  | none =>
      have hnone : lastWrite Update.slot s (updatesOf env r.leading) = none := by
        apply Option.eq_none_iff_forall_ne_some.mpr
        intro w hw
        obtain ⟨-, val', he', hu'⟩ := (r.lastWrite_leading_eq_some_iff env).mp hw
        rw [r.leading_unique he' h, hu] at hu'
        cases hu'
      rw [hnone]
      rfl
  | some u =>
      have hslot : u.slot = s := (slot_of_updateOf env hu).trans (ofKey_key s hs)
      rw [(r.lastWrite_leading_eq_some_iff env).mpr ⟨hslot, val, h, hu⟩]
      exact ((EnrRecord.value_update {} u s).trans (if_pos hslot)).symm

theorem value_decoded_of_not_mem (h : ∀ val, (s.key, val) ∉ r.leading) :
    (r.decoded env).value s = ({} : EnrRecord).value s := by
  have hnone : lastWrite Update.slot s (updatesOf env r.leading) = none := by
    apply Option.eq_none_iff_forall_ne_some.mpr
    intro w hw
    obtain ⟨-, val, he, -⟩ := (r.lastWrite_leading_eq_some_iff env).mp hw
    exact h val he
  rw [r.value_decoded env hs, hnone]
  rfl

end Loop

theorem fieldsRead_decoded_iff :
    r.FieldsRead env (r.decoded env) ↔ ∀ s ∈ knownFields, ∀ val, (s.key, .string val) ∈ r.entries →
      (s.key, val) ∈ r.leading ∨ (applyEntry env {} s.key val).value s = ({} : EnrRecord).value s := by
  -- the keys are distinct: if the entry of a field is not read, then no entry for that field is
  have hunread {s : Slot} {val : Bytes} (hmem : (s.key, .string val) ∈ r.entries) (hnot : (s.key, val) ∉ r.leading) :
      ∀ val', (s.key, val') ∉ r.leading := by
    intro val' h'
    have heq := Item.string.inj (r.value_unique (mem_entries_of_pairsOf h') hmem)
    exact hnot (heq ▸ h')
  constructor
  · intro h s hs val hmem
    by_cases hl : (s.key, val) ∈ r.leading
    · exact .inl hl
    · right
      rw [← (h s hs).1 val hmem]
      exact r.value_decoded_of_not_mem env hs (hunread hmem hl)
  · intro h s hs
    constructor
    · intro val hmem
      by_cases hl : (s.key, val) ∈ r.leading
      · exact r.value_decoded_of_mem env hs hl
      · rw [(h s hs val hmem).resolve_left hl]
        exact r.value_decoded_of_not_mem env hs (hunread hmem hl)
    · intro hnone
      apply r.value_decoded_of_not_mem env hs
      intro val hl
      exact hnone val (mem_entries_of_pairsOf hl)

/-! ## Other orders -/

theorem encodeAll_entryItems (es : List (Bytes × Item)) :
    encodeAll (entryItems es) = es.flatMap fun e => encodeString e.1 ++ e.2.encode := by
  induction es with
  | nil => rfl
  | cons e es ih =>
      rw [entryItems_cons, encodeAll_cons, encodeAll_cons, ih, Item.encode_string, List.flatMap_cons, List.append_assoc]

theorem length_encode_perm {sig : FixedBytes kEnrSigBytes} {seq : UIntTy.Val .uint64} {es es' : List (Bytes × Item)}
    (h : es.Perm es') :
    (Item.list (recordItems sig seq es)).encode.length = (Item.list (recordItems sig seq es')).encode.length := by
  have hentries : (encodeAll (entryItems es)).length = (encodeAll (entryItems es')).length := by
    rw [encodeAll_entryItems, encodeAll_entryItems]
    exact (h.flatMap_right _).length_eq
  simp only [recordItems, Item.encode_list, encodeAll_cons, encodeList, List.length_append, hentries]

def reorder (es : List (Bytes × Item)) (h : es.Perm r.entries) : NodeRecord where
  sig := r.sig
  seq := r.seq
  entries := es
  nodup := (h.map Prod.fst).nodup_iff.mpr r.nodup
  pubkey := r.pubkey
  pubkey_ne_zero := r.pubkey_ne_zero
  mem_pubkey := h.mem_iff.mpr r.mem_pubkey
  length_lt := (length_encode_perm h).trans_lt r.length_lt

theorem fieldsRead_reorder_iff {es : List (Bytes × Item)} (h : es.Perm r.entries) {record : EnrRecord} :
    (r.reorder es h).FieldsRead env record ↔ r.FieldsRead env record := by
  unfold FieldsRead reorder
  simp only [h.mem_iff]

theorem mem_leading_of_strings {key val : Bytes} (h : ∀ e ∈ r.entries, ∃ v, e.2 = .string v)
    (hmem : (key, .string val) ∈ r.entries) : (key, val) ∈ r.leading := by
  have hpairs (es : List (Bytes × Item)) (hes : ∀ e ∈ es, ∃ v, e.2 = .string v) (hmem : (key, .string val) ∈ es) :
      (key, val) ∈ pairsOf (entryItems es) := by
    induction es with
    | nil => cases hmem
    | cons e es ih =>
        obtain ⟨k, x⟩ := e
        obtain ⟨v, rfl⟩ : ∃ v, x = .string v := hes (k, x) (List.mem_cons_self ..)
        rw [entryItems_cons, pairsOf]
        rcases List.mem_cons.mp hmem with heq | hmem
        · cases heq
          exact List.mem_cons_self ..
        · exact List.mem_cons_of_mem _ (ih (fun e he => hes e (List.mem_cons_of_mem _ he)) hmem)
  exact hpairs r.entries h hmem

theorem leading_of_list {key : Bytes} {items : List Item} {es : List (Bytes × Item)}
    (h : r.entries = (key, .list items) :: es) : r.leading = [] := by
  unfold leading
  rw [h]
  rfl

theorem exists_fieldsRead_iff :
    (∃ record, decodeRlp env r.encode = .ok record ∧ r.FieldsRead env record) ↔
      (kEnrKeySecp256k1, r.pubkey.bytes) ∈ r.leading ∧ r.FieldsRead env (r.decoded env) := by
  simp only [decodeRlp_encode_eq_ok_iff]
  constructor
  · intro h
    obtain ⟨record, ⟨rfl, hpub⟩, hfields⟩ := h
    exact ⟨hpub, hfields⟩
  · intro h
    exact ⟨_, ⟨rfl, h.1⟩, h.2⟩

theorem exists_reorder_refused {key : Bytes} {items : List Item} (h : (key, .list items) ∈ r.entries) :
    ∃ es, ∃ hperm : es.Perm r.entries, ∀ record, decodeRlp env (r.reorder es hperm).encode ≠ .ok record := by
  obtain ⟨pre, post, hes⟩ := List.append_of_mem h
  have hperm : ((key, .list items) :: (pre ++ post)).Perm r.entries := hes ▸ List.perm_middle.symm
  refine ⟨_, hperm, ?_⟩
  intro record hok
  have hpub := ((r.reorder _ hperm).decodeRlp_encode_eq_ok_iff env).mp hok
  rw [leading_of_list (r.reorder _ hperm) rfl] at hpub
  cases hpub.2

theorem fieldsRead_of_strings (h : ∀ e ∈ r.entries, ∃ val, e.2 = .string val) :
    ∃ record, decodeRlp env r.encode = .ok record ∧ r.FieldsRead env record := by
  apply (r.exists_fieldsRead_iff env).mpr
  refine ⟨r.mem_leading_of_strings h r.mem_pubkey, (r.fieldsRead_decoded_iff env).mpr ?_⟩
  intro s _ val hmem
  exact .inl (r.mem_leading_of_strings h hmem)

/-- **The entries of a record are read independently of their order exactly if no value is a list.** In the order that
it has, the record is read if its key, and every entry that sets a field to more than its default, stands in front of
every list. -/
theorem entries_independent_iff :
    ((∀ es (h : es.Perm r.entries), ∃ record, decodeRlp env (r.reorder es h).encode = .ok record ∧
      r.FieldsRead env record) ↔
      ∀ e ∈ r.entries, ∃ val, e.2 = .string val) ∧
    ((∃ record, decodeRlp env r.encode = .ok record ∧ r.FieldsRead env record) ↔
      (kEnrKeySecp256k1, r.pubkey.bytes) ∈ r.leading ∧ ∀ s ∈ knownFields, ∀ val, (s.key, .string val) ∈ r.entries →
        (s.key, val) ∈ r.leading ∨ (applyEntry env {} s.key val).value s = ({} : EnrRecord).value s) := by
  constructor
  · constructor
    · intro h e he
      obtain ⟨key, value⟩ := e
      cases value with
      | string val => exact ⟨val, rfl⟩
      | list items =>
          obtain ⟨es, hperm, hrefused⟩ := r.exists_reorder_refused env he
          obtain ⟨record, hok, -⟩ := h es hperm
          exact absurd hok (hrefused record)
    · intro h es hperm
      simp only [← r.fieldsRead_reorder_iff env hperm]
      apply fieldsRead_of_strings
      intro e he
      exact h e (hperm.mem_iff.mp he)
  · rw [exists_fieldsRead_iff, fieldsRead_decoded_iff]

def snapEntry : Bytes × Item := (ascii ['s', 'n', 'a', 'p'], .list [])

def portEntries : List (Bytes × Item) := [(kEnrKeyTcp, .string [0x76, 0x5f]), (kEnrKeyUdp, .string [0x76, 0x5f])]

/-- A record with its keys in alphabetical order. -/
def sampleSnapRecord : NodeRecord where
  sig := FixedBytes.load _ nodeSig
  seq := 1
  entries := [(kEnrKeyId, .string (ascii ['v', '4'])), (kEnrKeySecp256k1, .string nodeKey)] ++ snapEntry :: portEntries
  nodup := by decide
  pubkey := FixedBytes.load _ nodeKey
  pubkey_ne_zero := nodeKey_ne_zero
  mem_pubkey := by simp [FixedBytes.bytes_load_self (show nodeKey.length = 33 by decide)]
  length_lt := by decide +kernel

/-- **An unrelated list takes the ports, or the key, from a record**: `snap` in front of the ports, behind them, and in
front of the key. -/
theorem ports_lost_behind_list :
    (decodeRlp enrEnv sampleSnapRecord.encode).map (fun record => (record.tcpPort, record.udpPort)) = .ok (0, 0) ∧
    (decodeRlp enrEnv (sampleSnapRecord.reorder
      ([(kEnrKeyId, .string (ascii ['v', '4'])), (kEnrKeySecp256k1, .string nodeKey)] ++ (portEntries ++ [snapEntry]))
      ((List.perm_append_singleton snapEntry portEntries).append_left _)).encode).map
        (fun record => (record.tcpPort, record.udpPort)) = .ok (30303, 30303) ∧
    decodeRlp enrEnv (sampleSnapRecord.reorder
      (snapEntry :: ([(kEnrKeyId, .string (ascii ['v', '4'])), (kEnrKeySecp256k1, .string nodeKey)] ++ portEntries))
      List.perm_middle.symm).encode = .error (.error .kEnrMissingSecp256k1Key) := by
  refine ⟨?_, ?_, ?_⟩
  · decide +kernel
  · decide +kernel
  · decide +kernel

end NodeRecord

end DevP2P.Discv5
