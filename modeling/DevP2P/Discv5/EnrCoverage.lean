import DevP2P.Discv5.EnrSignature

/-!
# Bytes behind the signed list

The signature covers the outer list, the key/value loop of `decode_rlp` reads on to the end of the
input.

* `SameFields` : two records agree in every field that is read from the input;
* `sameFields_verifiedRecord_iff` : that is, in every slot but the two the parser keeps for itself;
* `trailing_bytes_covered_iff` : bytes behind the list leave the fields as they are iff every field
  they set is set to what it is already, or the longer input is refused;
* `trailing_entry_changes_address` : they can change the address of a signed record.
-/

namespace DevP2P.Discv5.EnrParser
open DevP2P.Lib DevP2P.Rlp

variable {env : EnrPrimitives}

/-- `decode_rlp` followed by `verify_signature`. -/
def decodeAndVerify (env : EnrPrimitives) (raw : Bytes) : Except EnrFault EnrRecord := do
  let record ← decodeRlp env raw
  verifySignature env record

/-- Agreement in every field read from the input. -/
structure SameFields (r r' : EnrRecord) : Prop where
  seq : r.seq = r'.seq
  compressedPubkey : r.compressedPubkey = r'.compressedPubkey
  nodeId : r.nodeId = r'.nodeId
  ip : r.ip = r'.ip
  ip6 : r.ip6 = r'.ip6
  udpPort : r.udpPort = r'.udpPort
  tcpPort : r.tcpPort = r'.tcpPort
  udp6Port : r.udp6Port = r'.udp6Port
  tcp6Port : r.tcp6Port = r'.tcp6Port
  identityScheme : r.identityScheme = r'.identityScheme
  ethForkId : r.ethForkId = r'.ethForkId
  extraFields : r.extraFields = r'.extraFields

/-- The two slots the parser keeps for itself and clears at the end. -/
def IsReserved (s : Slot) : Prop := s = .extra kSigKey ∨ s = .extra kContentKey

theorem lookup_verifiedRecord (r : EnrRecord) (key : Bytes) :
    (verifiedRecord env r).extraFields.lookup key
      = if key = kSigKey ∨ key = kContentKey then none else r.extraFields.lookup key := by
  unfold verifiedRecord
  simp only
  split_ifs with h
  · rcases h with rfl | rfl
    · rw [Finmap.lookup_erase_ne (by decide), Finmap.lookup_erase]
    · rw [Finmap.lookup_erase]
  · rw [not_or] at h
    rw [Finmap.lookup_erase_ne h.2, Finmap.lookup_erase_ne h.1]

theorem sameFields_verifiedRecord_iff {r r' : EnrRecord} (hseq : r.seq = r'.seq) :
    SameFields (verifiedRecord env r) (verifiedRecord env r') ↔
      ∀ s, ¬ IsReserved s → r.value s = r'.value s := by
  constructor
  · intro h s hs
    have hkey : r.compressedPubkey = r'.compressedPubkey := h.compressedPubkey
    have hip : r.ip = r'.ip := h.ip
    have hip6 : r.ip6 = r'.ip6 := h.ip6
    have hid : r.identityScheme = r'.identityScheme := h.identityScheme
    have heth : r.ethForkId = r'.ethForkId := h.ethForkId
    have htcp : r.tcpPort = r'.tcpPort := h.tcpPort
    have hudp : r.udpPort = r'.udpPort := h.udpPort
    have htcp6 : r.tcp6Port = r'.tcp6Port := h.tcp6Port
    have hudp6 : r.udp6Port = r'.udp6Port := h.udp6Port
    cases s with
    | extra key =>
        have hne : ¬ (key = kSigKey ∨ key = kContentKey) := by
          intro hk
          rcases hk with rfl | rfl
          · exact hs (.inl rfl)
          · exact hs (.inr rfl)
        have hl := congrArg (Finmap.lookup key) h.extraFields
        rw [lookup_verifiedRecord, lookup_verifiedRecord, if_neg hne, if_neg hne] at hl
        simp only [EnrRecord.value, hl]
    | _ => simp only [EnrRecord.value, hkey, hip, hip6, hid, heth, htcp, hudp, htcp6, hudp6]
  · intro h
    have hslot : ∀ s, s ≠ .extra kSigKey → s ≠ .extra kContentKey → r.value s = r'.value s := by
      intro s h1 h2
      exact h s (fun hr => hr.elim h1 h2)
    have hkey : r.compressedPubkey = r'.compressedPubkey :=
      Update.pubkey.inj (Option.some.inj (hslot .pubkey (by simp) (by simp)))
    refine ⟨hseq, hkey, ?_, ?_, ?_, ?_, ?_, ?_, ?_, ?_, ?_, ?_⟩
    · show nodeIdOf env r.compressedPubkey = nodeIdOf env r'.compressedPubkey
      rw [hkey]
    · exact Update.ip.inj (Option.some.inj (hslot .ip (by simp) (by simp)))
    · exact Update.ip6.inj (Option.some.inj (hslot .ip6 (by simp) (by simp)))
    · exact Update.udp.inj (Option.some.inj (hslot .udp (by simp) (by simp)))
    · exact Update.tcp.inj (Option.some.inj (hslot .tcp (by simp) (by simp)))
    · exact Update.udp6.inj (Option.some.inj (hslot .udp6 (by simp) (by simp)))
    · exact Update.tcp6.inj (Option.some.inj (hslot .tcp6 (by simp) (by simp)))
    · exact Update.id.inj (Option.some.inj (hslot .id (by simp) (by simp)))
    · exact Option.map_injective (fun _ _ he => Update.eth.inj he) (hslot .eth (by simp) (by simp))
    · apply Finmap.ext_lookup
      intro key
      rw [lookup_verifiedRecord, lookup_verifiedRecord]
      split_ifs with hk
      · rfl
      · rw [not_or] at hk
        have hv := hslot (.extra key) (fun he => hk.1 (Slot.extra.inj he)) (fun he => hk.2 (Slot.extra.inj he))
        exact Option.map_injective (fun _ _ he => (Update.extra.inj he).2) hv

/-! ## Where the parts of a record are -/

def signatureOf (p : ByteView) : Bytes :=
  match readBytes ⟨p⟩ with
  | .ok sig _ => sig
  | .error _ _ => []

def elementsOf (p : ByteView) : ByteView :=
  match readBytes ⟨p⟩ with
  | .ok _ d => d.view
  | .error _ _ => []

def entryBytesOf (p : ByteView) : ByteView :=
  match readUInt .uint64 ⟨elementsOf p⟩ with
  | .ok _ d => d.view
  | .error _ _ => []

def signedEntries (p : ByteView) : List (Bytes × Bytes) := entriesOf (entryBytesOf p)

/-- The entries the loop reads after those, when the bytes `t` follow the list. -/
def trailingEntries (p t : ByteView) : List (Bytes × Bytes) := entriesOf (unread (entryBytesOf p) ++ t)

/-- Every field the trailing entries set is set to what the signed entries, or else the defaults, have
set it to. -/
def RepeatsFields (env : EnrPrimitives) (p t : ByteView) : Prop :=
  ∀ s u, ¬ IsReserved s → lastWrite Update.slot s (updatesOf env (trailingEntries p t)) = some u →
    (lastWrite Update.slot s (updatesOf env (signedEntries p))).or (EnrRecord.value {} s) = some u

/-- The signed and the trailing entries together leave a key and a pair that passes the check. -/
def PassesExtended (env : EnrPrimitives) (p t : ByteView) : Prop :=
  lastPubkey env (signedEntries p ++ trailingEntries p t) ≠ FixedBytes.zero _ ∧
    PassesCheck env (signatureOf p) (encodeList (elementsOf p)) (signedEntries p ++ trailingEntries p t)

section

variable {p t : Bytes} {r : EnrRecord}

/-- What it takes for a list to be accepted, with `t` behind it. -/
theorem decodeAndVerify_list_eq_ok_iff {sig rest : Bytes}
    (hp : (encodeString sig ++ rest).length < kSizeModulus) :
    decodeAndVerify env (encodeList (encodeString sig ++ rest) ++ t) = .ok r ↔
      sig.length = kEnrSigBytes ∧ rest ≠ [] ∧
      ∃ seq kv, readUInt .uint64 ⟨rest ++ t⟩ = .ok seq ⟨kv⟩ ∧
        lastPubkey env (entriesOf kv) ≠ FixedBytes.zero _ ∧ PassesCheck env sig (encodeList rest) (entriesOf kv) ∧
        r = verifiedRecord env
          (loopRecord env (encodeList (encodeString sig ++ rest) ++ t) seq sig (encodeList rest) kv) := by
  unfold decodeAndVerify
  rw [Outcome.bind_eq_ok]
  constructor
  · intro h
    obtain ⟨record, hdec, hver⟩ := h
    obtain ⟨hsig, hne, seq, kv, hseq, rfl, hkey⟩ := (decodeRlp_list_eq_ok_iff hp).mp hdec
    rw [compressedPubkey_loopRecord] at hkey
    obtain ⟨hpass, hr⟩ := (verifySignature_loopRecord_iff hsig).mp hver
    exact ⟨hsig, hne, seq, kv, hseq, hkey, hpass, hr⟩
  · intro h
    obtain ⟨hsig, hne, seq, kv, hseq, hkey, hpass, hr⟩ := h
    refine ⟨_, (decodeRlp_list_eq_ok_iff hp).mpr ⟨hsig, hne, seq, kv, hseq, rfl, ?_⟩,
      (verifySignature_loopRecord_iff hsig).mpr ⟨hpass, hr⟩⟩
    rw [compressedPubkey_loopRecord]
    exact hkey

theorem readUInt_append {T : UIntTy} {b r t : ByteView} {v : T.Val} (h : readUInt T ⟨b⟩ = .ok v ⟨r⟩) :
    readUInt T ⟨b ++ t⟩ = .ok v ⟨r ++ t⟩ := by
  rcases readUInt_eq_ok_iff.mp h with rfl | ⟨hv, rfl⟩
  · exact readUInt_eq_ok_iff.mpr (.inl (by rw [List.append_assoc]))
  · exact readUInt_eq_ok_iff.mpr (.inr ⟨hv, rfl⟩)

theorem seq_loopRecord (raw : Bytes) (seq : UIntTy.Val .uint64) (sig content : Bytes) (kv : ByteView) :
    (loopRecord env raw seq sig content kv).seq = seq := by
  have hfold : ∀ (us : List Update) (r : EnrRecord), (us.foldl EnrRecord.update r).seq = r.seq := by
    intro us
    induction us with
    | nil => intro r; rfl
    | cons u us ih =>
        intro r
        rw [List.foldl_cons, ih]
        cases u <;> rfl
  exact hfold _ _

theorem parts_of_list {sig rest kv : ByteView} {seq : UIntTy.Val .uint64} (hs : sig.length < kSizeModulus)
    (hseq : readUInt .uint64 ⟨rest⟩ = .ok seq ⟨kv⟩) :
    signatureOf (encodeString sig ++ rest) = sig ∧ elementsOf (encodeString sig ++ rest) = rest ∧
      entryBytesOf (encodeString sig ++ rest) = kv := by
  have hread : readBytes ⟨encodeString sig ++ rest⟩ = .ok sig ⟨rest⟩ := readBytes_eq_ok_iff.mpr ⟨hs, rfl⟩
  have hel : elementsOf (encodeString sig ++ rest) = rest := by
    unfold elementsOf
    rw [hread]
  refine ⟨?_, hel, ?_⟩
  · unfold signatureOf
    rw [hread]
  · unfold entryBytesOf
    rw [hel, hseq]

theorem value_loopRecord_append (raw raw' : Bytes) (seq : UIntTy.Val .uint64) (sig content : Bytes)
    (kv t : ByteView) (s : Slot) :
    (loopRecord env raw' seq sig content (kv ++ t)).value s
      = (lastWrite Update.slot s (updatesOf env (entriesOf (unread kv ++ t)))).or
          ((loopRecord env raw seq sig content kv).value s) := by
  rw [value_loopRecord, value_loopRecord, entriesOf_append, updatesOf_append, lastWrite_append,
    Option.or_assoc]
  cases s <;> rfl

section Extended

variable {sig rest kv : ByteView} {seq : UIntTy.Val .uint64}

theorem decodeAndVerify_append_eq_ok_iff (hp : (encodeString sig ++ rest).length < kSizeModulus)
    (hsig : sig.length = kEnrSigBytes) (hne : rest ≠ []) (hseq : readUInt .uint64 ⟨rest⟩ = .ok seq ⟨kv⟩) :
    decodeAndVerify env (encodeList (encodeString sig ++ rest) ++ t) = .ok r ↔
      PassesExtended env (encodeString sig ++ rest) t ∧ r = verifiedRecord env
        (loopRecord env (encodeList (encodeString sig ++ rest) ++ t) seq sig (encodeList rest) (kv ++ t)) := by
  obtain ⟨hs1, hs2, hs3⟩ := parts_of_list (by rw [hsig]; decide) hseq
  have hseq' := readUInt_append (t := t) hseq
  unfold PassesExtended signedEntries trailingEntries
  rw [decodeAndVerify_list_eq_ok_iff hp, hs1, hs2, hs3, ← entriesOf_append]
  constructor
  · intro h
    obtain ⟨-, -, seq', kv', hread, hkey, hpass, hr⟩ := h
    rw [hseq'] at hread
    cases hread
    exact ⟨⟨hkey, hpass⟩, hr⟩
  · intro h
    obtain ⟨⟨hkey, hpass⟩, hr⟩ := h
    exact ⟨hsig, hne, seq, kv ++ t, hseq', hkey, hpass, hr⟩

theorem sameFields_append_iff (hsig : sig.length = kEnrSigBytes)
    (hseq : readUInt .uint64 ⟨rest⟩ = .ok seq ⟨kv⟩) (raw raw' content : Bytes) :
    SameFields (verifiedRecord env (loopRecord env raw seq sig content kv))
        (verifiedRecord env (loopRecord env raw' seq sig content (kv ++ t))) ↔
      RepeatsFields env (encodeString sig ++ rest) t := by
  obtain ⟨-, -, hs3⟩ := parts_of_list (by rw [hsig]; decide) hseq
  unfold RepeatsFields signedEntries trailingEntries
  rw [sameFields_verifiedRecord_iff (by rw [seq_loopRecord, seq_loopRecord]), hs3]
  have hvalue : ∀ s, ¬ IsReserved s → (loopRecord env raw seq sig content kv).value s
      = (lastWrite Update.slot s (updatesOf env (entriesOf kv))).or (EnrRecord.value {} s) := by
    intro s hs
    rw [value_loopRecord, value_startRecord (fun h => hs (.inl h)) (fun h => hs (.inr h))]
  constructor
  · intro h s u hs hu
    have hv := h s hs
    rw [value_loopRecord_append raw, hu, Option.some_or] at hv
    rw [← hvalue s hs, hv]
  · intro h s hs
    rw [value_loopRecord_append raw]
    cases hw : lastWrite Update.slot s (updatesOf env (entriesOf (unread kv ++ t))) with
    | none => rw [Option.none_or]
    | some u => rw [Option.some_or, hvalue s hs, h s u hs hw]

end Extended

/-- **When bytes behind the signed list change no field**: every field they set is set to what it is
already, or the longer input is refused. -/
theorem trailing_bytes_covered_iff (hlen : (encodeList p ++ t).length < 2 ^ 64)
    (hok : decodeAndVerify env (encodeList p) = .ok r) :
    (∀ r', decodeAndVerify env (encodeList p ++ t) = .ok r' → SameFields r r') ↔
      RepeatsFields env p t ∨ ¬ PassesExtended env p t := by
  have hp : p.length < kSizeModulus := by
    rw [List.length_append] at hlen
    exact lt_of_le_of_lt ((length_le_encodeList p).trans (Nat.le_add_right _ _)) hlen
  obtain ⟨record, hdec, -⟩ := Outcome.bind_eq_ok.mp hok
  obtain ⟨sig, rest, rfl⟩ := exists_signature_of_decodeRlp hp hdec
  rw [← List.append_nil (encodeList _), decodeAndVerify_list_eq_ok_iff hp] at hok
  obtain ⟨hsig, hne, seq, kv, hseq, -, -, rfl⟩ := hok
  rw [List.append_nil] at hseq
  constructor
  · intro h
    by_cases hpass : PassesExtended env (encodeString sig ++ rest) t
    · have hsame := h _ ((decodeAndVerify_append_eq_ok_iff hp hsig hne hseq).mpr ⟨hpass, rfl⟩)
      exact .inl ((sameFields_append_iff hsig hseq _ _ _).mp hsame)
    · exact .inr hpass
  · intro h r' hr'
    obtain ⟨hpass, rfl⟩ := (decodeAndVerify_append_eq_ok_iff hp hsig hne hseq).mp hr'
    rcases h with hrep | hno
    · exact (sameFields_append_iff hsig hseq _ _ _).mpr hrep
    · exact absurd hpass hno

end

/-- A byte that starts no entry, behind the node's record. -/
theorem trailing_list_changes_nothing : ∃ r,
    decodeAndVerify enrEnv (encodeList (encodeAll (.string nodeSig :: nodeItems))) = .ok r ∧
    ∀ r', decodeAndVerify enrEnv (encodeList (encodeAll (.string nodeSig :: nodeItems)) ++ [0xc0]) = .ok r' →
      SameFields r r' := by
  have h : (do
      let _ ← decodeAndVerify enrEnv (encodeList (encodeAll (.string nodeSig :: nodeItems)))
      return ()) = Except.ok () := by
    decide +kernel
  obtain ⟨r, hr, -⟩ := Outcome.bind_eq_ok.mp h
  refine ⟨r, hr, (trailing_bytes_covered_iff (by decide +kernel) hr).mpr (.inl ?_)⟩
  intro s u _ hu
  have hnone : trailingEntries (encodeAll (.string nodeSig :: nodeItems)) [0xc0] = [] := by decide +kernel
  rw [hnone] at hu
  cases hu

/-- **An entry behind the list changes the address of a signed record.** -/
theorem trailing_entry_changes_address : ∃ r r',
    decodeAndVerify enrEnv (Item.list (.string nodeSig :: nodeItems)).encode = .ok r ∧
    decodeAndVerify enrEnv ((Item.list (.string nodeSig :: nodeItems)).encode
      ++ encodePair (kEnrKeyIp, [10, 0, 0, 1])) = .ok r' ∧
    r.ip ≠ r'.ip := by
  have h : (do
      let r ← decodeAndVerify enrEnv (Item.list (.string nodeSig :: nodeItems)).encode
      let r' ← decodeAndVerify enrEnv ((Item.list (.string nodeSig :: nodeItems)).encode
        ++ encodePair (kEnrKeyIp, [10, 0, 0, 1]))
      rejectIf (r.ip = r'.ip) (.error .kEnrInvalidIp)) = Except.ok () := by
    decide +kernel
  obtain ⟨r, hr, h⟩ := Outcome.bind_eq_ok.mp h
  obtain ⟨r', hr', h⟩ := Outcome.bind_eq_ok.mp h
  exact ⟨r, r', hr, hr', Outcome.rejectIf_eq_ok.mp h⟩

end DevP2P.Discv5.EnrParser
