import DevP2P.Discv5.EnrEntries
import DevP2P.Rlp.Integral

/-!
# What the record parser accepts

* `enterList_eq_ok_iff`, `wrapContent_run` : the list header and the signed content;
* `decodeRlp_list_eq_ok_iff` : `decode_rlp` on a list whose first element is a string, with any
  bytes behind the list;
* `ecdsaCheck` : the signature check of a pair; `verifySignature_eq_ok_iff` : `verify_signature`
  makes it on the pair it finds in `extra_fields`.
-/

namespace DevP2P.Discv5.EnrParser
open DevP2P.Lib DevP2P.Rlp Stateful

variable {env : EnrPrimitives}

/-! ## Decoding -/

theorem enterList_eq_ok_iff {ε : Type} {e : ε} {v r : ByteView} {n : Nat} :
    enterList e ⟨v⟩ = .ok n ⟨r⟩ ↔ n < kSizeModulus ∧ n ≤ r.length ∧ v = headerBytes true n ++ r := by
  unfold enterList
  rw [get_bind, ← readListHeaderBytes_eq_ok_iff]
  constructor
  · intro h
    obtain ⟨-, h⟩ := rejectIf_bind_eq_ok.mp h
    exact withError_eq_ok.mp h
  · intro h
    obtain ⟨hn, -, rfl⟩ := readListHeaderBytes_eq_ok_iff.mp h
    rw [rejectIf_bind_of_not (by rw [isList_headerBytes hn]; simp)]
    exact withError_eq_ok.mpr h

theorem wrapContent_run {elements : ByteView} (h0 : elements ≠ []) (h : elements.length < kSizeModulus) :
    wrapContent elements RlpEncoder.new = .ok (encodeList elements) RlpEncoder.new := by
  have hadd : addRaw elements ⟨[], [0]⟩ = .ok () ⟨elements, [0]⟩ := by
    unfold addRaw
    rw [rejectIf_bind_of_not (by simpa using h0)]
    rfl
  have hend : endList ⟨elements, [0]⟩ = .ok () ⟨encodeList elements, []⟩ := endList_run h [] []
  have hbegin : beginList ⟨[], []⟩ = .ok () ⟨[], [0]⟩ := beginList_run [] []
  unfold wrapContent RlpEncoder.new
  rw [bind_of_ok hbegin, bind_of_ok hadd, bind_of_ok hend]
  rfl

theorem wrapContent_nil : wrapContent [] RlpEncoder.new = .error .kEmptyInput ⟨[], [0]⟩ := rfl

/-- The record `decode_rlp` starts the key/value loop with. -/
def startRecord (raw : Bytes) (seq : UIntTy.Val .uint64) (sig content : Bytes) : EnrRecord :=
  { rawRlp := raw
    seq := seq
    extraFields := ((∅ : Finmap _).insert kSigKey sig).insert kContentKey content
    sigBuffer := sig }

theorem value_startRecord {s : Slot} (hsig : s ≠ .extra kSigKey) (hcontent : s ≠ .extra kContentKey) (raw : Bytes)
    (seq : UIntTy.Val .uint64) (sig content : Bytes) :
    (startRecord raw seq sig content).value s = EnrRecord.value {} s := by
  cases s with
  | extra key =>
      have h1 : key ≠ kSigKey := fun h => hsig (congrArg Slot.extra h)
      have h2 : key ≠ kContentKey := fun h => hcontent (congrArg Slot.extra h)
      unfold startRecord EnrRecord.value
      simp only
      rw [Finmap.lookup_insert_of_ne _ h2, Finmap.lookup_insert_of_ne _ h1]
  | _ => rfl

/-- The record `decode_rlp` has read when the loop is over. -/
def loopRecord (env : EnrPrimitives) (raw : Bytes) (seq : UIntTy.Val .uint64) (sig content : Bytes)
    (kv : ByteView) : EnrRecord :=
  (updatesOf env (entriesOf kv)).foldl EnrRecord.update (startRecord raw seq sig content)

section LoopRecord

variable (env) (raw : Bytes) (seq : UIntTy.Val .uint64) (sig content : Bytes) (kv : ByteView)

theorem value_loopRecord (s : Slot) :
    (loopRecord env raw seq sig content kv).value s
      = (lastWrite Update.slot s (updatesOf env (entriesOf kv))).or
          ((startRecord raw seq sig content).value s) :=
  EnrRecord.value_update.foldl _ _ _

theorem lookup_loopRecord {key : Bytes} (hkey : IsExtraKey env key) :
    (loopRecord env raw seq sig content kv).extraFields.lookup key
      = ((lastWrite Prod.fst key (entriesOf kv)).map Prod.snd).or
          ((startRecord raw seq sig content).extraFields.lookup key) := by
  have hinj : Function.Injective (Update.extra key) := fun a b h => (Update.extra.inj h).2
  have h := value_loopRecord env raw seq sig content kv (.extra key)
  rw [lastWrite_extra env hkey] at h
  apply Option.map_injective hinj
  rw [Option.map_or, Option.map_map]
  exact h

theorem lookup_sig_startRecord : (startRecord raw seq sig content).extraFields.lookup kSigKey = some sig := by
  unfold startRecord
  rw [Finmap.lookup_insert_of_ne _ (by decide), Finmap.lookup_insert]

theorem lookup_content_startRecord :
    (startRecord raw seq sig content).extraFields.lookup kContentKey = some content := by
  unfold startRecord
  rw [Finmap.lookup_insert]

end LoopRecord

/-- `decode_rlp` on a list that starts with the string `sig`, with `t` behind the list: the content
is made of the rest of the list, the entries are read to the end of the input. -/
theorem decodeRlp_list_eq_ok_iff {sig rest t : Bytes} {record : EnrRecord}
    (hp : (encodeString sig ++ rest).length < kSizeModulus) :
    decodeRlp env (encodeList (encodeString sig ++ rest) ++ t) = .ok record ↔
      sig.length = kEnrSigBytes ∧ rest ≠ [] ∧
      ∃ seq kv, readUInt .uint64 ⟨rest ++ t⟩ = .ok seq ⟨kv⟩ ∧
        record = loopRecord env (encodeList (encodeString sig ++ rest) ++ t) seq sig (encodeList rest) kv ∧
        record.compressedPubkey ≠ FixedBytes.zero _ := by
  have henter : enterList (.error .kEnrRlpDecodeFailed : EnrFault)
      ⟨encodeList (encodeString sig ++ rest) ++ t⟩
        = .ok (encodeString sig ++ rest).length ⟨encodeString sig ++ rest ++ t⟩ :=
    enterList_eq_ok_iff.mpr ⟨hp, by simp, by rw [encodeList, List.append_assoc]⟩
  have hsig : withError (.error .kEnrRlpDecodeFailed : EnrFault) readBytes
      ⟨encodeString sig ++ rest ++ t⟩ = .ok sig ⟨rest ++ t⟩ := by
    refine withError_eq_ok.mpr (readBytes_eq_ok_iff.mpr ⟨?_, by rw [List.append_assoc]⟩)
    refine lt_of_le_of_lt ((length_le_encodeString sig).trans ?_) hp
    simp
  -- the signature takes its own length out of the payload
  have hlen : ((encodeString sig ++ rest).length
      + (kSizeModulus - ((encodeString sig ++ rest ++ t).length - (rest ++ t).length))) % kSizeModulus
        = rest.length := by
    simp only [List.length_append] at hp ⊢
    rw [show (encodeString sig).length + rest.length + (kSizeModulus
      - ((encodeString sig).length + rest.length + t.length - (rest.length + t.length)))
        = rest.length + kSizeModulus by omega, Nat.add_mod_right, Nat.mod_eq_of_lt (by omega)]
  unfold decodeRlp decodeRlpSteps
  rw [outcome_eq_ok, bind_of_ok henter, get_bind, bind_of_ok hsig]
  constructor
  · intro h
    obtain ⟨d, h⟩ := h
    obtain ⟨hsize, h⟩ := rejectIf_bind_eq_ok.mp h
    rw [get_bind] at h
    simp only [hlen] at h
    obtain ⟨-, h⟩ := rejectIf_bind_eq_ok.mp h
    obtain ⟨content, d', hcontent, h⟩ := bind_eq_ok.mp h
    rw [List.take_left, withError_eq_ok, lift_eq_ok] at hcontent
    obtain ⟨hcontent, rfl⟩ := hcontent
    have hne : rest ≠ [] := by
      intro h0
      rw [h0, wrapContent_nil] at hcontent
      cases hcontent
    rw [wrapContent_run hne (by simp at hp; omega)] at hcontent
    cases hcontent
    obtain ⟨seq, ⟨kv⟩, hseq, h⟩ := bind_eq_ok.mp h
    rw [get_bind] at h
    obtain ⟨hkey, h⟩ := rejectIf_bind_eq_ok.mp h
    rw [entryLoop_eq] at hkey h
    cases h
    exact ⟨not_not.mp hsize, hne, seq, kv, withError_eq_ok.mp hseq, rfl, hkey⟩
  · intro h
    obtain ⟨hsize, hne, seq, kv, hseq, rfl, hkey⟩ := h
    refine ⟨⟨kv⟩, ?_⟩
    rw [rejectIf_bind_of_not (by simpa using hsize), get_bind]
    simp only [hlen]
    have hcontent : withError (.error .kEnrRlpDecodeFailed : EnrFault)
        (Stateful.lift (Stateful.outcome (wrapContent rest RlpEncoder.new))) (RlpDecoder.mk (rest ++ t))
          = .ok (encodeList rest) ⟨rest ++ t⟩ := by
      rw [wrapContent_run hne (by simp at hp; omega)]
      rfl
    rw [rejectIf_bind_of_not (by simp), List.take_left, bind_of_ok hcontent,
      bind_of_ok (withError_eq_ok.mpr hseq), get_bind, entryLoop_eq,
      rejectIf_bind_of_not]
    · rfl
    · exact hkey

theorem exists_signature_of_decodeRlp {p : Bytes} {record : EnrRecord} (hp : p.length < kSizeModulus)
    (h : decodeRlp env (encodeList p) = .ok record) : ∃ sig rest, p = encodeString sig ++ rest := by
  have henter : enterList (.error .kEnrRlpDecodeFailed : EnrFault) ⟨encodeList p⟩
      = .ok p.length ⟨p⟩ := enterList_eq_ok_iff.mpr ⟨hp, le_rfl, rfl⟩
  unfold decodeRlp decodeRlpSteps at h
  obtain ⟨d, h⟩ := outcome_eq_ok.mp h
  rw [bind_of_ok henter, get_bind] at h
  obtain ⟨sig, ⟨rest⟩, hsig, -⟩ := bind_eq_ok.mp h
  exact ⟨sig, rest, (readBytes_eq_ok_iff.mp (withError_eq_ok.mp hsig)).2⟩

/-! ## Verifying -/

/-- The ECDSA check of the signature `sig` over the hash of `content`, under a compressed key. -/
def ecdsaCheck (env : EnrPrimitives) (sig : FixedBytes kEnrSigBytes) (content : Bytes)
    (key : FixedBytes kCompressedKeyBytes) : Bool :=
  match env.secp.pubkeyParse key.bytes, env.secp.signatureParseCompact sig with
  | some pubkey, some s => env.secp.ecdsaVerify s (env.keccak256 content) pubkey
  | _, _ => false

def nodeIdOf (env : EnrPrimitives) (key : FixedBytes kCompressedKeyBytes) : NodeId :=
  match env.secp.pubkeyParse key.bytes with
  | some pubkey => FixedBytes.load _ ((env.secp.serializeUncompressed pubkey).bytes.drop 1)
  | none => FixedBytes.zero _

/-- The record `verify_signature` leaves behind. -/
def verifiedRecord (env : EnrPrimitives) (record : EnrRecord) : EnrRecord :=
  { record with
    nodeId := nodeIdOf env record.compressedPubkey
    extraFields := (record.extraFields.erase kSigKey).erase kContentKey
    sigBuffer := [] }

/-- **`verify_signature` checks the pair it finds in `extra_fields`**; 64 bytes of the signature's storage are read. -/
theorem verifySignature_eq_ok_iff {record record' : EnrRecord} :
    verifySignature env record = .ok record' ↔
      env.secp.contextCreate = true ∧
      (∃ sig content, record.extraFields.lookup kSigKey = some sig ∧
        record.extraFields.lookup kContentKey = some content ∧ kEnrSigBytes ≤ record.sigBuffer.length ∧
        ecdsaCheck env (FixedBytes.load _ record.sigBuffer) content record.compressedPubkey = true) ∧
      record' = verifiedRecord env record := by
  unfold verifySignature ecdsaCheck verifiedRecord nodeIdOf
  constructor
  · intro h
    obtain ⟨sig, hsig, h⟩ := Outcome.bind_eq_ok.mp h
    obtain ⟨content, hcontent, h⟩ := Outcome.bind_eq_ok.mp h
    obtain ⟨hctx, h⟩ := Outcome.rejectIf_bind_eq_ok.mp h
    obtain ⟨pubkey, hkey, h⟩ := Outcome.bind_eq_ok.mp h
    obtain ⟨s, hs, h⟩ := Outcome.bind_eq_ok.mp h
    obtain ⟨hverify, h⟩ := Outcome.rejectIf_bind_eq_ok.mp h
    obtain ⟨nodeId, hnode, h⟩ := Outcome.bind_eq_ok.mp h
    rw [Outcome.unwrap_eq_ok] at hsig hcontent hkey
    unfold parseCompact at hs
    obtain ⟨hlen, hs⟩ := Outcome.rejectIf_bind_eq_ok.mp hs
    rw [Outcome.unwrap_eq_ok] at hs
    unfold decompressPubkey at hnode
    rw [Outcome.mapError_eq_ok, Outcome.rejectIf_bind_of_not hctx, hkey] at hnode
    cases hnode
    cases h
    refine ⟨by simpa using hctx, ⟨sig, content, hsig, hcontent, not_lt.mp hlen, ?_⟩, ?_⟩
    · simpa [hkey, hs] using hverify
    · simp [hkey]
  · intro h
    obtain ⟨hctx, ⟨sig, content, hsig, hcontent, hlen, hcheck⟩, rfl⟩ := h
    cases hkey : env.secp.pubkeyParse record.compressedPubkey.bytes with
    | none => simp [hkey] at hcheck
    | some pubkey =>
        cases hs : env.secp.signatureParseCompact (FixedBytes.load _ record.sigBuffer) with
        | none => simp [hkey, hs] at hcheck
        | some s =>
            simp only [hkey, hs] at hcheck
            have hparse : parseCompact env record.sigBuffer = .ok s := by
              unfold parseCompact
              rw [Outcome.rejectIf_bind_of_not (not_lt.mpr hlen), hs]
              rfl
            have hnode : decompressPubkey env record.compressedPubkey
                = .ok (FixedBytes.load _ ((env.secp.serializeUncompressed pubkey).bytes.drop 1)) := by
              unfold decompressPubkey
              rw [Outcome.rejectIf_bind_of_not (by simp [hctx]), hkey]
              rfl
            refine Outcome.bind_eq_ok.mpr ⟨sig, Outcome.unwrap_eq_ok.mpr hsig, ?_⟩
            refine Outcome.bind_eq_ok.mpr ⟨content, Outcome.unwrap_eq_ok.mpr hcontent, ?_⟩
            refine Outcome.rejectIf_bind_eq_ok.mpr ⟨by simp [hctx], ?_⟩
            refine Outcome.bind_eq_ok.mpr ⟨pubkey, Outcome.unwrap_eq_ok.mpr rfl, ?_⟩
            refine Outcome.bind_eq_ok.mpr ⟨s, hparse, ?_⟩
            refine Outcome.rejectIf_bind_eq_ok.mpr ⟨by simp [hcheck], ?_⟩
            exact Outcome.bind_eq_ok.mpr ⟨_, Outcome.mapError_eq_ok.mpr hnode, rfl⟩

end DevP2P.Discv5.EnrParser
