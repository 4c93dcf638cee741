import DevP2P.Discv5.EnrDecode

/-!
# Which pair `verify_signature` checks

The signature and the signed content of a record travel from `decode_rlp` to `verify_signature` in
`extra_fields`, where the record's own unknown keys are stored too.

* `pairsOf` : the entries of a well-formed record; `entriesOf_encodeAll` : the loop reads these;
* `sigBufferAfter` : the storage of the signature, into which each entry under `"__sig__"` is copied;
* `verifiedPair` : the pair `verify_signature` checks;
* `verifies_own_pair_iff` : it is the record's own one unless entries under `"__sig__"` or `"__content__"` put another
  one in its place that passes the check;
* `forged_record_accepted` : a record with a signature over another record.
-/

namespace DevP2P.Discv5.EnrParser
open DevP2P.Lib DevP2P.Rlp

variable {env : EnrPrimitives}

/-! ## Entries of a well-formed record -/

def pairsOf : List Item → List (Bytes × Bytes)
  | .string k :: .string v :: items => (k, v) :: pairsOf items
  | _ => []

theorem readBytes_string {s : Bytes} {items : List Item}
    (h : (encodeAll (.string s :: items)).length < kSizeModulus) :
    readBytes ⟨encodeAll (.string s :: items)⟩ = .ok s ⟨encodeAll items⟩ := by
  rw [encodeAll_cons, Item.encode_string] at h ⊢
  refine readBytes_eq_ok_iff.mpr ⟨lt_of_le_of_lt (length_le_encodeString s) ?_, rfl⟩
  rw [List.length_append] at h
  omega

/-- What `read(Bytes&)` takes from a forest is its first item, a string. -/
theorem items_of_readBytes {items : List Item} {s : Bytes} {r : ByteView}
    (hlen : (encodeAll items).length < kSizeModulus)
    (h : readBytes ⟨encodeAll items⟩ = .ok s ⟨r⟩) : ∃ rest, items = .string s :: rest ∧ r = encodeAll rest := by
  rcases items with _ | ⟨item, items⟩
  · cases h
  · cases item with
    | string s' =>
        rw [readBytes_string hlen] at h
        cases h
        exact ⟨items, rfl, rfl⟩
    | list children =>
        rw [encodeAll_cons, Item.encode_list, encodeList, List.append_assoc] at h hlen
        have hn : (encodeAll children).length < kSizeModulus := by
          simp only [List.length_append] at hlen
          omega
        obtain ⟨hdr, w, hc, hl, -⟩ := readBytes_eq_ok_iff_header.mp h
        have hc' : CanonicalHeader _ ⟨true, _, _⟩ (encodeAll children ++ encodeAll items) :=
          .header hn (by simp) (by simp)
        rw [hc.header_unique hc'] at hl
        cases hl

theorem items_of_readPair {items : List Item} {e : Bytes × Bytes} {r : ByteView}
    (hlen : (encodeAll items).length < kSizeModulus) (h : readPair (encodeAll items) = some (e, r)) :
    ∃ rest, items = .string e.1 :: .string e.2 :: rest ∧ r = encodeAll rest := by
  obtain ⟨⟨hk, hx⟩, hv⟩ := readPair_eq_some_iff.mp h
  rw [encodePair, List.append_assoc] at hv
  obtain ⟨rest, rfl, hr⟩ := items_of_readBytes hlen (readBytes_eq_ok_iff.mpr ⟨hk, hv⟩)
  have hlen' : (encodeAll rest).length < kSizeModulus := by
    rw [encodeAll_cons, List.length_append] at hlen
    omega
  obtain ⟨rest', rfl, hr'⟩ := items_of_readBytes hlen' (readBytes_eq_ok_iff.mpr ⟨hx, hr.symm⟩)
  exact ⟨rest', rfl, hr'⟩

theorem readPair_strings {k v : Bytes} {items : List Item}
    (hlen : (encodeAll (.string k :: .string v :: items)).length < kSizeModulus) :
    readPair (encodeAll (.string k :: .string v :: items)) = some ((k, v), encodeAll items) := by
  simp only [encodeAll_cons, Item.encode_string, List.length_append] at hlen ⊢
  have hk := length_le_encodeString k
  have hv := length_le_encodeString v
  refine readPair_eq_some_iff.mpr ⟨⟨?_, ?_⟩, by rw [encodePair, List.append_assoc]⟩
  · simp only
    omega
  · simp only
    omega

theorem entriesOf_encodeAll (items : List Item) (hlen : (encodeAll items).length < kSizeModulus) :
    entriesOf (encodeAll items) = pairsOf items := by
  fun_induction pairsOf items with
  | case1 k v items ih =>
      have hle : (encodeAll items).length < kSizeModulus := by
        simp only [encodeAll_cons, List.length_append] at hlen
        omega
      rw [entriesOf_of_some (readPair_strings hlen), ih hle]
  | case2 items hno =>
      apply entriesOf_of_none
      cases hr : readPair (encodeAll items) with
      | none => rfl
      | some er =>
          obtain ⟨rest, hitems, -⟩ := items_of_readPair hlen hr
          exact absurd hitems (hno _ _ rest)

/-! ## The pair that is verified -/

/-- The signature bytes and the content that `verify_signature` checks. -/
def verifiedPair (record : EnrRecord) : Option (FixedBytes kEnrSigBytes × Bytes) :=
  match record.extraFields.lookup kSigKey, record.extraFields.lookup kContentKey with
  | some _, some content => some (FixedBytes.load _ record.sigBuffer, content)
  | _, _ => none

/-- The storage of the signature after the entries. -/
def sigBufferAfter (sig : Bytes) (es : List (Bytes × Bytes)) : Bytes :=
  es.foldl (fun storage e => if e.1 = kSigKey then assignInto storage e.2 else storage) sig

theorem length_le_sigBufferAfter (sig : Bytes) (es : List (Bytes × Bytes)) :
    sig.length ≤ (sigBufferAfter sig es).length := by
  induction es generalizing sig with
  | nil => exact le_rfl
  | cons e es ih =>
      refine le_trans ?_ (ih _)
      dsimp only
      split_ifs
      · simp only [assignInto, List.length_append, List.length_drop]
        omega
      · exact le_rfl

/-- A short value leaves the end of the signature. -/
example : sigBufferAfter [1, 2, 3] [(kSigKey, [4, 5]), (kContentKey, [6])] = [4, 5, 3] := by decide

theorem sigBuffer_updatesOf (env : EnrPrimitives) (es : List (Bytes × Bytes)) (r : EnrRecord) :
    ((updatesOf env es).foldl EnrRecord.update r).sigBuffer = sigBufferAfter r.sigBuffer es := by
  induction es generalizing r with
  | nil => rfl
  | cons e es ih =>
      unfold updatesOf sigBufferAfter
      rw [List.filterMap_cons, List.foldl_cons]
      by_cases hkey : e.1 = kSigKey
      · rw [hkey, isExtraKey_sig env e.2]
        refine (ih _).trans ?_
        rw [if_pos rfl]
        rfl
      · rw [if_neg hkey]
        cases hu : updateOf env e.1 e.2 with
        | none => exact ih r
        | some u =>
            refine (ih _).trans (congrArg (sigBufferAfter · es) ?_)
            cases u with
            | extra key val =>
                have hslot := slot_of_updateOf env hu
                have hsame : key = e.1 := by rw [← Slot.key_ofKey e.1, ← hslot]; rfl
                exact if_neg (hsame ▸ hkey)
            | _ => rfl

theorem sigBuffer_loopRecord (env : EnrPrimitives) (raw : Bytes) (seq : UIntTy.Val .uint64) (sig content : Bytes)
    (kv : ByteView) : (loopRecord env raw seq sig content kv).sigBuffer = sigBufferAfter sig (entriesOf kv) :=
  sigBuffer_updatesOf env _ _

/-- The value of the last entry under `key`. -/
def lastValue (key : Bytes) (es : List (Bytes × Bytes)) : Option Bytes :=
  (lastWrite Prod.fst key es).map Prod.snd

/-- The key that the last acceptable `"secp256k1"` entry sets. -/
def lastPubkey (env : EnrPrimitives) (es : List (Bytes × Bytes)) : FixedBytes kCompressedKeyBytes :=
  match lastWrite Update.slot .pubkey (updatesOf env es) with
  | some (.pubkey key) => key
  | _ => FixedBytes.zero _

theorem compressedPubkey_loopRecord (env : EnrPrimitives) (raw : Bytes) (seq : UIntTy.Val .uint64) (sig content : Bytes)
    (kv : ByteView) :
    (loopRecord env raw seq sig content kv).compressedPubkey = lastPubkey env (entriesOf kv) := by
  have h := value_loopRecord env raw seq sig content kv .pubkey
  unfold lastPubkey
  cases hw : lastWrite Update.slot .pubkey (updatesOf env (entriesOf kv)) with
  | none =>
      rw [hw] at h
      exact Update.pubkey.inj (Option.some.inj h)
  | some u =>
      rw [hw] at h
      have hu : Update.pubkey (loopRecord env raw seq sig content kv).compressedPubkey = u :=
        Option.some.inj h
      subst hu
      rfl

theorem verifiedPair_loopRecord (env : EnrPrimitives) (raw : Bytes) (seq : UIntTy.Val .uint64) (sig content : Bytes)
    (kv : ByteView) :
    (loopRecord env raw seq sig content kv).extraFields.lookup kSigKey
        = some ((lastValue kSigKey (entriesOf kv)).getD sig) ∧
      (loopRecord env raw seq sig content kv).extraFields.lookup kContentKey
        = some ((lastValue kContentKey (entriesOf kv)).getD content) := by
  constructor
  · rw [lookup_loopRecord _ _ _ _ _ _ (isExtraKey_sig env), lookup_sig_startRecord, ← lastValue]
    cases lastValue kSigKey (entriesOf kv) <;> rfl
  · rw [lookup_loopRecord _ _ _ _ _ _ (isExtraKey_content env), lookup_content_startRecord, ← lastValue]
    cases lastValue kContentKey (entriesOf kv) <;> rfl

/-- A record decoded from a well-formed list: its first item is the signature, its second one the
sequence number, and the loop reads the others. -/
theorem record_of_decodeRlp {sig : Bytes} {items : List Item} {record : EnrRecord}
    (hlen : (Item.list (.string sig :: items)).encode.length < kSizeModulus)
    (hdec : decodeRlp env (Item.list (.string sig :: items)).encode = .ok record) :
    sig.length = kEnrSigBytes ∧ ∃ raw seq kv, record = loopRecord env raw seq sig (Item.list items).encode kv ∧
      entriesOf kv = pairsOf items.tail := by
  simp only [Item.encode_list, encodeAll_cons, Item.encode_string] at hlen hdec
  have hp := lt_of_le_of_lt (length_le_encodeList _) hlen
  rw [← List.append_nil (encodeList _), decodeRlp_list_eq_ok_iff hp] at hdec
  obtain ⟨hsig, -, seq, kv, hseq, hrec, -⟩ := hdec
  rw [List.append_nil] at hseq
  obtain ⟨s, hread, -⟩ := readUInt_eq_ok_iff_readBytes.mp hseq
  have hle : (encodeAll items).length < kSizeModulus := by
    rw [List.length_append] at hp
    omega
  obtain ⟨rest, rfl, rfl⟩ := items_of_readBytes hle hread
  refine ⟨hsig, _, seq, _, by rw [Item.encode_list]; exact hrec, ?_⟩
  apply entriesOf_encodeAll
  rw [encodeAll_cons, List.length_append] at hle
  omega

/-- The pair the entries leave for `verify_signature` passes its check. -/
def PassesCheck (env : EnrPrimitives) (sig content : Bytes) (es : List (Bytes × Bytes)) : Prop :=
  env.secp.contextCreate = true ∧
    ecdsaCheck env (FixedBytes.load _ (sigBufferAfter sig es)) ((lastValue kContentKey es).getD content)
      (lastPubkey env es) = true

theorem verifySignature_loopRecord_iff {raw : Bytes} {seq : UIntTy.Val .uint64} {sig content : Bytes}
    {kv : ByteView} {record' : EnrRecord} (hsize : sig.length = kEnrSigBytes) :
    verifySignature env (loopRecord env raw seq sig content kv) = .ok record' ↔
      PassesCheck env sig content (entriesOf kv) ∧
        record' = verifiedRecord env (loopRecord env raw seq sig content kv) := by
  obtain ⟨hsig, hcontent⟩ := verifiedPair_loopRecord env raw seq sig content kv
  have hkey := compressedPubkey_loopRecord env raw seq sig content kv
  rw [verifySignature_eq_ok_iff, hsig, hcontent, hkey, sigBuffer_loopRecord]
  unfold PassesCheck
  constructor
  · intro h
    obtain ⟨hctx, ⟨s, c, hs, hc, -, hcheck⟩, hrec⟩ := h
    cases hs
    cases hc
    exact ⟨⟨hctx, hcheck⟩, hrec⟩
  · intro h
    obtain ⟨⟨hctx, hcheck⟩, hrec⟩ := h
    exact ⟨hctx, ⟨_, _, rfl, rfl, hsize ▸ length_le_sigBufferAfter _ _, hcheck⟩, hrec⟩

/-- If `verify_signature` accepts the record, then on the strength of the signature `sig` over
`content`. -/
def VerifiesOwnPair (env : EnrPrimitives) (record : EnrRecord) (sig content : Bytes) : Prop :=
  ∀ record', verifySignature env record = .ok record' →
    verifiedPair record = some (FixedBytes.load _ sig, content) ∧
    ecdsaCheck env (FixedBytes.load _ sig) content record.compressedPubkey = true

/-- The entries under the two keys of the parser, if there are any, leave the signature in its storage, and the
content. -/
def KeepsOwnPair (sig content : Bytes) (es : List (Bytes × Bytes)) : Prop :=
  FixedBytes.load kEnrSigBytes (sigBufferAfter sig es) = FixedBytes.load _ sig ∧
    (lastValue kContentKey es).getD content = content

/-- **When an accepted record carries a signature over its own content**: unless entries under the two keys of the
parser replace a part of the pair and the replaced pair passes the check. -/
theorem verifies_own_pair_iff {sig : Bytes} {items : List Item} {record : EnrRecord}
    (hlen : (Item.list (.string sig :: items)).encode.length < 2 ^ 64)
    (hdec : decodeRlp env (Item.list (.string sig :: items)).encode = .ok record) :
    VerifiesOwnPair env record sig (Item.list items).encode ↔
      KeepsOwnPair sig (Item.list items).encode (pairsOf items.tail) ∨
        ¬ PassesCheck env sig (Item.list items).encode (pairsOf items.tail) := by
  obtain ⟨hsize, raw, seq, kv, rfl, hkv⟩ := record_of_decodeRlp hlen hdec
  obtain ⟨hsig, hcontent⟩ :=
    verifiedPair_loopRecord env raw seq sig (Item.list items).encode kv
  have hkey := compressedPubkey_loopRecord env raw seq sig (Item.list items).encode kv
  have hpair : verifiedPair (loopRecord env raw seq sig (Item.list items).encode kv)
      = some (FixedBytes.load _ (sigBufferAfter sig (entriesOf kv)),
          (lastValue kContentKey (entriesOf kv)).getD (Item.list items).encode) := by
    unfold verifiedPair
    rw [hsig, hcontent, sigBuffer_loopRecord]
  unfold VerifiesOwnPair KeepsOwnPair
  rw [hpair, hkey, ← hkv]
  constructor
  · intro h
    by_cases hpass : PassesCheck env sig (Item.list items).encode (entriesOf kv)
    · have hown := (h _ ((verifySignature_loopRecord_iff hsize).mpr ⟨hpass, rfl⟩)).1
      simp only [Option.some.injEq, Prod.mk.injEq] at hown
      exact .inl hown
    · exact .inr hpass
  · intro h record' hverify
    obtain ⟨hpass, -⟩ := (verifySignature_loopRecord_iff hsize).mp hverify
    rcases h with ⟨hs, hc⟩ | hno
    · have hcheck := hpass.2
      rw [hs, hc] at hcheck ⊢
      exact ⟨rfl, hcheck⟩
    · exact absurd hpass hno

/-! ## A forged record

The keys, signatures and hashes below are real ones; the library is given by its values on them. -/

def nodeSig : Bytes :=
  beStore 64 0x7098ad865b00a582051940cb9cf36836572411a47278783077011599ed5cd16b76f2635f4e234738f30813a89eb9137e3e3df5266e3a1f11df72ecf1145ccb9c

/-- The node's compressed key. -/
def nodeKey : Bytes := beStore 33 0x03ca634cae0d49acb401d8a4c6b6fe8c55b70d115bf400769cc1400f3258cd3138

def nodeKey65 : Bytes :=
  beStore 65 0x04ca634cae0d49acb401d8a4c6b6fe8c55b70d115bf400769cc1400f3258cd31387574077f301b421bc84df7266c44e9e6d569fc56be00812904767bf5ccd1fc7f

/-- The elements of the node's record behind the signature: sequence number 1, scheme `v4`, address
`127.0.0.1`, key and port 30303. -/
def nodeItems : List Item :=
  [.string [0x01], .string kEnrKeyId, .string (ascii ['v', '4']), .string kEnrKeyIp, .string [127, 0, 0, 1],
    .string kEnrKeySecp256k1, .string nodeKey, .string kEnrKeyUdp, .string [0x76, 0x5f]]

def nodeContent : Bytes := (Item.list nodeItems).encode

def nodeHash : Bytes := beStore 32 0xbc218268b018aecb5d4c5afd5feeb3b920f56eddf09bdf83df9d3de868e1cb95

/-- A signature that is not one of the node. -/
def forgedSig : Bytes := List.replicate 64 0x01

/-- The elements of a record somebody else makes for the node: its key, another address, and the
node's own signature and content under the two keys of the parser. -/
def forgedItems : List Item :=
  [.string [0x02], .string kContentKey, .string nodeContent, .string kSigKey, .string nodeSig,
    .string kEnrKeyIp, .string [10, 0, 0, 1], .string kEnrKeySecp256k1, .string nodeKey]

def forgedHash : Bytes := beStore 32 0x84d0369ca0e4470c3dd1ce217c4463bd7301837e2410ae972511b0e63ba1c2f5

/-- The library on these inputs: the node's key is valid, and the only pair of a signature and a hash
that verifies under it is the node's. There is no private key here. -/
def sampleSecp : Secp256k1 where
  PubKey := Bytes
  Signature := FixedBytes 64
  RecoverableSignature := FixedBytes 64
  contextCreate := true
  seckeyVerify _ := false
  pubkeyCreate _ := none
  pubkeyParse b := if b = nodeKey then some nodeKey65 else none
  serializeUncompressed := FixedBytes.load 65
  serializeCompressed := FixedBytes.load 33
  pubkeyTweakMul _ _ := none
  signatureParseCompact := some
  ecdsaVerify sig hash key := sig.bytes = nodeSig ∧ hash.bytes = nodeHash ∧ key = nodeKey65
  signRecoverable _ _ := none
  recoverableSerializeCompact sig := (sig, recoveryId 0)

def enrEnv : EnrPrimitives where
  secp := sampleSecp
  keccak256 b := FixedBytes.load _
    (if b = nodeContent then nodeHash else if b = (Item.list forgedItems).encode then forgedHash else [])
  addressV4ToString a := List.intercalate (ascii ['.']) (a.bytes.map fun b => ascii (Nat.toDigits 10 b.toNat))
  addressV6ToString a := a.bytes

/-- **A record with a signature over another record is accepted.** -/
theorem forged_record_accepted : ∃ record record',
    decodeRlp enrEnv (Item.list (.string forgedSig :: forgedItems)).encode = .ok record ∧
    verifySignature enrEnv record = .ok record' ∧
    verifiedPair record ≠ some (FixedBytes.load _ forgedSig, (Item.list forgedItems).encode) ∧
    ecdsaCheck enrEnv (FixedBytes.load _ forgedSig) (Item.list forgedItems).encode
      record.compressedPubkey = false := by
  have h : (do
      let record ← decodeRlp enrEnv (Item.list (.string forgedSig :: forgedItems)).encode
      let record' ← verifySignature enrEnv record
      rejectIf (verifiedPair record = some (FixedBytes.load _ forgedSig, (Item.list forgedItems).encode) ∨
        ecdsaCheck enrEnv (FixedBytes.load _ forgedSig) (Item.list forgedItems).encode
          record.compressedPubkey = true) (.error .kEnrSignatureInvalid)) = Except.ok () := by
    decide +kernel
  obtain ⟨record, hdec, h⟩ := Outcome.bind_eq_ok.mp h
  obtain ⟨record', hverify, h⟩ := Outcome.bind_eq_ok.mp h
  have hno := Outcome.rejectIf_eq_ok.mp h
  rw [not_or, Bool.not_eq_true] at hno
  exact ⟨record, record', hdec, hverify, hno⟩

/-- The node's own record names no key of the parser. -/
theorem node_record_verifies_own_pair : ∃ record,
    decodeRlp enrEnv (Item.list (.string nodeSig :: nodeItems)).encode = .ok record ∧
    VerifiesOwnPair enrEnv record nodeSig (Item.list nodeItems).encode := by
  have h : (do
      let _ ← decodeRlp enrEnv (Item.list (.string nodeSig :: nodeItems)).encode
      return ()) = Except.ok () := by
    decide +kernel
  obtain ⟨record, hdec, -⟩ := Outcome.bind_eq_ok.mp h
  refine ⟨record, hdec, (verifies_own_pair_iff (by decide +kernel) hdec).mpr (.inl ?_)⟩
  unfold KeepsOwnPair
  decide +kernel

end DevP2P.Discv5.EnrParser
