import DevP2P.Discv5.EnrSignature
import DevP2P.Discv5.SessionCrypto
import DevP2P.Rlp.Appends

/-!
# The node's own record (`make_local_enr_record`, `discv5/discv5_client.cpp`)

The record is encoded twice, once to be signed and once to be sent; the parser builds the signed list a third
time, from a slice of what it reads.

* `makeLocalEnrRecord` : the record of a configuration;
* `localEntries` : its entries; `addRecordEntries_appends` : what both encodings append;
* `makeLocalEnrRecord_accepted` : the parser accepts the record, with the node's own public key.
-/

namespace DevP2P.Discv5
open DevP2P.Lib DevP2P.Rlp

def kInitialEnrSeq : UInt8 := 1

/-- The identity scheme `"v4"`. -/
def kIdentitySchemeV4 : Bytes := ascii ['v', '4']

/-- The fields of `discv5Config` that the client and its crawler read. -/
structure Discv5Config where
  bindIp : Bytes
  tcpPort : UInt16
  privateKey : Rlpx.PrivateKey
  publicKey : NodeId
  requiredForkId : Option ForkId
deriving DecidableEq

/-- The address that is advertised: an IPv6 address is replaced by zeros. -/
def IpAddress.ipBytes : IpAddress → FixedBytes kIPv4Bytes
  | .v4 bytes => bytes
  | .v6 _ _ => .zero _

/-- The elements behind the signature, which both lists hold in this order. -/
def addRecordEntries (ipBytes : FixedBytes kIPv4Bytes) (compressed : FixedBytes kCompressedKeyBytes)
    (tcpPort udpPort : UInt16) : EncodeM Unit := do
  addUInt (T := .uint64) (BitVec.ofNat _ kInitialEnrSeq.toNat)
  addBytes kEnrKeyId
  addBytes kIdentitySchemeV4
  addBytes kEnrKeyIp
  addBytes ipBytes.bytes
  addBytes kEnrKeySecp256k1
  addBytes compressed.bytes
  addBytes kEnrKeyTcp
  addUInt (T := .uint16) tcpPort.toBitVec
  addBytes kEnrKeyUdp
  addUInt (T := .uint16) udpPort.toBitVec

/-- A list in an encoder of its own, every failure being `kEnrRlpDecodeFailed`. -/
def encodeEnrList (body : EncodeM Unit) : Except Discv5Error Bytes :=
  (Stateful.outcome (encodeListOf body RlpEncoder.new)).mapError fun _ => .kEnrRlpDecodeFailed

variable (env : ClientPrimitives)

def Discv5Config.advertisedTcpPort (config : Discv5Config) (udpPort : UInt16) : UInt16 :=
  if config.tcpPort ≠ 0 then config.tcpPort else udpPort

def makeLocalEnrRecord (config : Discv5Config) (udpPort : UInt16) : Except Discv5Error Bytes := do
  let compressed ← compressPublicKey env config.publicKey
  let bindAddr ← Outcome.unwrap (env.makeAddress config.bindIp) .kEnrInvalidIp
  let ipBytes := bindAddr.ipBytes
  let tcpPort := config.advertisedTcpPort udpPort
  let contentBytes ← encodeEnrList (addRecordEntries ipBytes compressed tcpPort udpPort)
  let compactSig ← signCompact env (env.keccak256 contentBytes) config.privateKey
  encodeEnrList (do
    addBytes compactSig.bytes
    addRecordEntries ipBytes compressed tcpPort udpPort)

/-! ## The bytes of the record -/

def localEntries (ipBytes : FixedBytes kIPv4Bytes) (compressed : FixedBytes kCompressedKeyBytes)
    (tcpPort udpPort : UInt16) : List (Bytes × Bytes) :=
  [(kEnrKeyId, kIdentitySchemeV4), (kEnrKeyIp, ipBytes.bytes), (kEnrKeySecp256k1, compressed.bytes),
    (kEnrKeyTcp, beBytes tcpPort.toNat), (kEnrKeyUdp, beBytes udpPort.toNat)]

/-- What is signed: the sequence number and the entries. -/
def localContent (ipBytes : FixedBytes kIPv4Bytes) (compressed : FixedBytes kCompressedKeyBytes)
    (tcpPort udpPort : UInt16) : Bytes :=
  encodeString (beBytes kInitialEnrSeq.toNat) ++ (localEntries ipBytes compressed tcpPort udpPort).flatMap encodePair

section

variable (ipBytes : FixedBytes kIPv4Bytes) (compressed : FixedBytes kCompressedKeyBytes) (tcpPort udpPort : UInt16)

theorem addRecordEntries_appends :
    Appends (addRecordEntries ipBytes compressed tcpPort udpPort)
      (localContent ipBytes compressed tcpPort udpPort) := by
  have hcontent : localContent ipBytes compressed tcpPort udpPort =
      encodeString (beBytes kInitialEnrSeq.toNat) ++ (encodeString kEnrKeyId ++ (encodeString kIdentitySchemeV4 ++
      (encodeString kEnrKeyIp ++ (encodeString ipBytes.bytes ++ (encodeString kEnrKeySecp256k1 ++
      (encodeString compressed.bytes ++ (encodeString kEnrKeyTcp ++ (encodeString (beBytes tcpPort.toNat) ++
      (encodeString kEnrKeyUdp ++ encodeString (beBytes udpPort.toNat)))))))))) := by
    simp only [localContent, localEntries, List.flatMap_cons, List.flatMap_nil, encodePair, List.append_assoc,
      List.append_nil]
  rw [hcontent]
  exact (Appends.uint (T := .uint64) (BitVec.ofNat _ kInitialEnrSeq.toNat)).seq <|
    (Appends.bytes (by decide)).seq <| (Appends.bytes (by decide)).seq <|
    (Appends.bytes (by decide)).seq <| (Appends.fixed ipBytes (by decide)).seq <|
    (Appends.bytes (by decide)).seq <| (Appends.fixed compressed (by decide)).seq <|
    (Appends.bytes (by decide)).seq <| (Appends.uint (T := .uint16) tcpPort.toBitVec).seq <|
    (Appends.bytes (by decide)).seq <| Appends.uint (T := .uint16) udpPort.toBitVec

theorem length_localContent_le : (localContent ipBytes compressed tcpPort udpPort).length ≤ 200 := by
  have hport (p : UInt16) : (beBytes p.toNat).length ≤ 2 := by
    rw [length_beBytes]
    exact (byteLength_le_iff _ 2).mpr p.toNat_lt
  have hstring (s : Bytes) (k : Nat) (h : s.length ≤ k) (hk : k < kSizeModulus) :
      (encodeString s).length ≤ k + 9 :=
    (length_encodeString_le (lt_of_le_of_lt h hk)).trans (by omega)
  have hip := hstring ipBytes.bytes 4 (le_of_eq ipBytes.size_eq) (by decide)
  have hkey := hstring compressed.bytes 33 (le_of_eq compressed.size_eq) (by decide)
  have htcp := hstring _ 2 (hport tcpPort) (by decide)
  have hudp := hstring _ 2 (hport udpPort) (by decide)
  have hfixed : (encodeString (beBytes kInitialEnrSeq.toNat)).length + (encodeString kEnrKeyId).length +
      (encodeString kIdentitySchemeV4).length + (encodeString kEnrKeyIp).length +
      (encodeString kEnrKeySecp256k1).length + (encodeString kEnrKeyTcp).length +
      (encodeString kEnrKeyUdp).length ≤ 40 := by decide
  simp only [localContent, localEntries, List.flatMap_cons, List.flatMap_nil, encodePair, List.append_nil,
    List.length_append]
  omega

end

theorem encodeEnrList_run {body : EncodeM Unit} {p : Bytes} (h : Appends body p) (hp : p.length < kSizeModulus) :
    encodeEnrList body = .ok (encodeList p) := by
  unfold encodeEnrList
  rw [encodeListOf_run h hp]
  rfl

theorem encodeEnrList_addRecordEntries (ipBytes : FixedBytes kIPv4Bytes)
    (compressed : FixedBytes kCompressedKeyBytes) (tcpPort udpPort : UInt16) :
    encodeEnrList (addRecordEntries ipBytes compressed tcpPort udpPort) =
      .ok (encodeList (localContent ipBytes compressed tcpPort udpPort)) := by
  apply encodeEnrList_run (addRecordEntries_appends ipBytes compressed tcpPort udpPort)
  exact lt_of_le_of_lt (length_localContent_le ..) (by decide)

/-- The bytes of a record with the signature `sig`. -/
def localRecordBytes (sig : FixedBytes kEnrSigBytes) (content : Bytes) : Bytes :=
  encodeList (encodeString sig.bytes ++ content)

theorem length_signature_le (sig : FixedBytes kEnrSigBytes) : (encodeString sig.bytes).length ≤ 73 := by
  have := length_encodeString_le (s := sig.bytes) (by rw [sig.size_eq]; decide)
  rwa [sig.size_eq] at this

variable {env}

theorem makeLocalEnrRecord_eq_ok_iff {config : Discv5Config} {udpPort : UInt16} {raw : Bytes} :
    makeLocalEnrRecord env config udpPort = .ok raw ↔
      ∃ compressed, compressPublicKey env config.publicKey = .ok compressed ∧
      ∃ bindAddr, env.makeAddress config.bindIp = some bindAddr ∧
      ∃ sig, signCompact env (env.keccak256 (encodeList
          (localContent bindAddr.ipBytes compressed (config.advertisedTcpPort udpPort) udpPort))) config.privateKey =
        .ok sig ∧
      raw = localRecordBytes sig
        (localContent bindAddr.ipBytes compressed (config.advertisedTcpPort udpPort) udpPort) := by
  have hrecord (sig : FixedBytes kEnrSigBytes) (ip : FixedBytes kIPv4Bytes)
      (compressed : FixedBytes kCompressedKeyBytes) (tcp : UInt16) :
      encodeEnrList (do addBytes sig.bytes; addRecordEntries ip compressed tcp udpPort) =
        .ok (localRecordBytes sig (localContent ip compressed tcp udpPort)) := by
    apply encodeEnrList_run ((Appends.fixed sig (by decide)).seq (addRecordEntries_appends ip compressed tcp udpPort))
    have h1 := length_signature_le sig
    have h2 := length_localContent_le ip compressed tcp udpPort
    rw [List.length_append]
    exact lt_of_le_of_lt (show _ ≤ 273 by omega) (by decide)
  unfold makeLocalEnrRecord
  simp only [Outcome.bind_eq_ok, Outcome.unwrap_eq_ok, encodeEnrList_addRecordEntries, hrecord, Except.ok.injEq,
    exists_eq_left']
  exact ⟨fun ⟨c, hc, addr, ha, sig, hs, h⟩ => ⟨c, hc, addr, ha, sig, hs, h.symm⟩,
    fun ⟨c, hc, addr, ha, sig, hs, h⟩ => ⟨c, hc, addr, ha, sig, hs, h.symm⟩⟩

theorem length_makeLocalEnrRecord_le {config : Discv5Config} {udpPort : UInt16} {raw : Bytes}
    (h : makeLocalEnrRecord env config udpPort = .ok raw) : raw.length ≤ 282 := by
  obtain ⟨compressed, -, addr, -, sig, -, rfl⟩ := makeLocalEnrRecord_eq_ok_iff.mp h
  have h1 := length_signature_le sig
  have h2 := length_localContent_le addr.ipBytes compressed (config.advertisedTcpPort udpPort) udpPort
  have h3 : (encodeString sig.bytes ++ localContent addr.ipBytes compressed (config.advertisedTcpPort udpPort)
      udpPort).length ≤ 273 := by
    rw [List.length_append]
    omega
  exact (length_encodeList_le (lt_of_le_of_lt h3 (by decide))).trans (by omega)

theorem makeLocalEnrRecord_ne_nil {config : Discv5Config} {udpPort : UInt16} {raw : Bytes}
    (h : makeLocalEnrRecord env config udpPort = .ok raw) : raw ≠ [] := by
  obtain ⟨compressed, -, addr, -, sig, -, rfl⟩ := makeLocalEnrRecord_eq_ok_iff.mp h
  intro h0
  exact headerBytes_ne_nil _ _ (List.append_eq_nil_iff.mp h0).1

/-! ## The parser accepts the record -/

open EnrParser

section

variable (env' : EnrPrimitives) (ipBytes : FixedBytes kIPv4Bytes) (compressed : FixedBytes kCompressedKeyBytes)
  (tcpPort udpPort : UInt16)

theorem entriesOf_localEntries :
    entriesOf ((localEntries ipBytes compressed tcpPort udpPort).flatMap encodePair) =
      localEntries ipBytes compressed tcpPort udpPort := by
  have hport (p : UInt16) : (beBytes p.toNat).length < kSizeModulus := by
    rw [length_beBytes]
    exact lt_of_le_of_lt ((byteLength_le_iff _ 2).mpr p.toNat_lt) (by decide)
  have hsize : ∀ e ∈ localEntries ipBytes compressed tcpPort udpPort, HasSize e := by
    have hkeys : kEnrKeyId.length < kSizeModulus ∧ kIdentitySchemeV4.length < kSizeModulus ∧
        kEnrKeyIp.length < kSizeModulus ∧ kEnrKeySecp256k1.length < kSizeModulus ∧
        kEnrKeyTcp.length < kSizeModulus ∧ kEnrKeyUdp.length < kSizeModulus := by decide
    obtain ⟨hid, hv4, hip, hsecp, htcp, hudp⟩ := hkeys
    have hfixed {n : Nat} (a : FixedBytes n) (h : n < kSizeModulus) : a.bytes.length < kSizeModulus := by
      rwa [a.size_eq]
    simp only [localEntries, List.forall_mem_cons]
    exact ⟨⟨hid, hv4⟩, ⟨hip, hfixed ipBytes (by decide)⟩, ⟨hsecp, hfixed compressed (by decide)⟩,
      ⟨htcp, hport _⟩, ⟨hudp, hport _⟩, nofun⟩
  have h := entriesOf_flatMap_append hsize []
  rwa [List.append_nil, show entriesOf [] = [] from rfl, List.append_nil] at h

theorem updatesOf_localEntries :
    updatesOf env' (localEntries ipBytes compressed tcpPort udpPort) =
      [.id kIdentitySchemeV4, .ip (env'.addressV4ToString ipBytes), .pubkey compressed] ++
        (((decodePort (beBytes tcpPort.toNat)).toOption.map Update.tcp).toList ++
          ((decodePort (beBytes udpPort.toNat)).toOption.map Update.udp).toList) := by
  have hip : updateOf env' kEnrKeyIp ipBytes.bytes = some (.ip (env'.addressV4ToString ipBytes)) := by
    show (decodeIpv4 env' ipBytes.bytes).toOption.map Update.ip = _
    unfold decodeIpv4
    rw [Outcome.rejectIf_bind_of_not (by simp), FixedBytes.load_bytes]
    rfl
  have hkey : updateOf env' kEnrKeySecp256k1 compressed.bytes = some (.pubkey compressed) := by
    show (if compressed.bytes.length = kCompressedKeyBytes then _ else none) = _
    rw [if_pos compressed.size_eq, FixedBytes.load_bytes]
  have htcp (v : Bytes) : updateOf env' kEnrKeyTcp v = (decodePort v).toOption.map .tcp := rfl
  have hudp (v : Bytes) : updateOf env' kEnrKeyUdp v = (decodePort v).toOption.map .udp := rfl
  have hid (v : Bytes) : updateOf env' kEnrKeyId v = some (.id v) := rfl
  unfold updatesOf localEntries
  simp only [List.filterMap_cons, hid, hip, hkey, htcp, hudp, List.filterMap_nil]
  cases (decodePort (beBytes tcpPort.toNat)).toOption <;> cases (decodePort (beBytes udpPort.toNat)).toOption <;> rfl

/-- The key of the record is the one in its `"secp256k1"` entry. -/
theorem lastPubkey_localEntries : lastPubkey env' (localEntries ipBytes compressed tcpPort udpPort) = compressed := by
  unfold lastPubkey
  rw [updatesOf_localEntries]
  cases (decodePort (beBytes tcpPort.toNat)).toOption <;> cases (decodePort (beBytes udpPort.toNat)).toOption <;> rfl

end

def localRecord (env' : EnrPrimitives) (sig : FixedBytes kEnrSigBytes) (ipBytes : FixedBytes kIPv4Bytes)
    (compressed : FixedBytes kCompressedKeyBytes) (tcpPort udpPort : UInt16) : EnrRecord :=
  loopRecord env' (localRecordBytes sig (localContent ipBytes compressed tcpPort udpPort))
    (BitVec.ofNat _ kInitialEnrSeq.toNat) sig.bytes (encodeList (localContent ipBytes compressed tcpPort udpPort))
    ((localEntries ipBytes compressed tcpPort udpPort).flatMap encodePair)

section

variable {env' : EnrPrimitives} {sig : FixedBytes kEnrSigBytes} {ipBytes : FixedBytes kIPv4Bytes}
  {compressed : FixedBytes kCompressedKeyBytes} {tcpPort udpPort : UInt16}

theorem compressedPubkey_localRecord :
    (localRecord env' sig ipBytes compressed tcpPort udpPort).compressedPubkey = compressed := by
  unfold localRecord
  rw [compressedPubkey_loopRecord, entriesOf_localEntries, lastPubkey_localEntries]

theorem decodeRlp_localRecordBytes (hkey : compressed ≠ .zero _) :
    decodeRlp env' (localRecordBytes sig (localContent ipBytes compressed tcpPort udpPort)) =
      .ok (localRecord env' sig ipBytes compressed tcpPort udpPort) := by
  have h1 := length_signature_le sig
  have h2 := length_localContent_le ipBytes compressed tcpPort udpPort
  have hlen : (encodeString sig.bytes ++ localContent ipBytes compressed tcpPort udpPort).length < kSizeModulus := by
    rw [List.length_append]
    exact lt_of_le_of_lt (show _ ≤ 273 by omega) (by decide)
  have hseq : readUInt .uint64 ⟨localContent ipBytes compressed tcpPort udpPort⟩ =
      .ok (BitVec.ofNat _ kInitialEnrSeq.toNat)
        ⟨(localEntries ipBytes compressed tcpPort udpPort).flatMap encodePair⟩ := by
    refine readUInt_eq_ok_iff.mpr (.inl ?_)
    rw [toBigCompact_eq]
    rfl
  have hne : localContent ipBytes compressed tcpPort udpPort ≠ [] := by
    intro h0
    rw [localContent, List.append_eq_nil_iff] at h0
    exact absurd h0.1 (by decide)
  have h := @decodeRlp_list_eq_ok_iff env' sig.bytes _ [] (localRecord env' sig ipBytes compressed tcpPort udpPort) hlen
  rw [List.append_nil, List.append_nil] at h
  refine h.mpr ⟨sig.size_eq, hne, _, _, hseq, rfl, ?_⟩
  rw [compressedPubkey_localRecord]
  exact hkey

theorem verifySignature_localRecord {P : env'.secp.PubKey} {s : env'.secp.Signature}
    (hctx : env'.secp.contextCreate = true) (hkey : env'.secp.pubkeyParse compressed.bytes = some P)
    (hsig : env'.secp.signatureParseCompact sig = some s)
    (hverify : env'.secp.ecdsaVerify s (env'.keccak256 (encodeList (localContent ipBytes compressed tcpPort udpPort)))
      P = true) :
    verifySignature env' (localRecord env' sig ipBytes compressed tcpPort udpPort) =
      .ok (verifiedRecord env' (localRecord env' sig ipBytes compressed tcpPort udpPort)) := by
  -- no entry is under one of the two keys that `decode_rlp` uses itself
  refine (verifySignature_loopRecord_iff sig.size_eq).mpr ⟨⟨hctx, ?_⟩, rfl⟩
  rw [entriesOf_localEntries, lastPubkey_localEntries]
  show ecdsaCheck env' (.load _ sig.bytes) (encodeList (localContent ipBytes compressed tcpPort udpPort)) _ = true
  unfold ecdsaCheck
  rw [FixedBytes.load_bytes, hkey, hsig]
  exact hverify

theorem nodeId_verifiedRecord_localRecord {P : env'.secp.PubKey} {nodeId : NodeId}
    (hkey : env'.secp.pubkeyParse compressed.bytes = some P)
    (hnode : (env'.secp.serializeUncompressed P).bytes = kUncompressedPubKeyPrefix :: nodeId.bytes) :
    (verifiedRecord env' (localRecord env' sig ipBytes compressed tcpPort udpPort)).nodeId = nodeId := by
  show nodeIdOf env' _ = nodeId
  unfold nodeIdOf
  rw [compressedPubkey_localRecord, hkey]
  show FixedBytes.load _ ((env'.secp.serializeUncompressed P).bytes.drop 1) = nodeId
  rw [hnode, List.drop_one, List.tail_cons, FixedBytes.load_bytes]

end

/-- The public key of the configuration is that of its private key, the point `P`. -/
structure Discv5Config.KeyPair (env : ClientPrimitives) (config : Discv5Config) (P : env.secp.PubKey) : Prop where
  pubkey : env.secp.pubkeyCreate config.privateKey = some P
  nodeId : (env.secp.serializeUncompressed P).bytes = kUncompressedPubKeyPrefix :: config.publicKey.bytes

theorem parseNodeId_of_keyPair {config : Discv5Config} {P : env.secp.PubKey} (hpair : config.KeyPair env P)
    (hread : env.secp.ReadBack P) : parseNodeId env config.publicKey = some P := by
  unfold parseNodeId
  rw [← hpair.nodeId]
  exact hread.uncompressed

/-- The digest that the record of a configuration is signed under. -/
def enrDigest (env : ClientPrimitives) (config : Discv5Config) (bindAddr : IpAddress) (udpPort : UInt16)
    (P : env.secp.PubKey) : FixedBytes 32 :=
  env.keccak256 (encodeList (localContent bindAddr.ipBytes (env.secp.serializeCompressed P)
    (config.advertisedTcpPort udpPort) udpPort))

/-- **The parser accepts the node's own record**, with the node's own public key. -/
theorem makeLocalEnrRecord_accepted {config : Discv5Config} {P : env.secp.PubKey} {udpPort : UInt16} {raw : Bytes}
    (hpair : config.KeyPair env P) (hread : env.secp.ReadBack P)
    (hlaw : ∀ bindAddr, env.makeAddress config.bindIp = some bindAddr →
      env.secp.Verifies config.privateKey (enrDigest env config bindAddr udpPort P) P)
    (h : makeLocalEnrRecord env config udpPort = .ok raw) :
    ∃ record, decodeRlp env.toEnrPrimitives raw = .ok record ∧
    ∃ verified, verifySignature env.toEnrPrimitives record = .ok verified ∧ verified.nodeId = config.publicKey := by
  obtain ⟨compressed, hcomp, bindAddr, haddr, sig, hsig, rfl⟩ := makeLocalEnrRecord_eq_ok_iff.mp h
  obtain ⟨hctx, P', hP, rfl⟩ := compressPublicKey_eq_ok_iff.mp hcomp
  obtain rfl : P' = P := Option.some.inj (hP.symm.trans (parseNodeId_of_keyPair hpair hread))
  obtain ⟨-, r, hr, rfl⟩ := signCompact_eq_ok_iff.mp hsig
  obtain ⟨s, hs, hverify⟩ := hlaw bindAddr haddr r hr
  exact ⟨_, decodeRlp_localRecordBytes hread.compressed_ne_zero, _,
    verifySignature_localRecord hctx hread.compressed hs hverify,
    nodeId_verifiedRecord_localRecord hread.compressed hpair.nodeId⟩

end DevP2P.Discv5
