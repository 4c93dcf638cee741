import DevP2P.Discv5.EnrCoverage
import DevP2P.Discv5.SessionAgreement

/-!
# The fields of the node's own record

What `decode_rlp` and `verify_signature` make of the record that `make_local_enr_record` returns. A port of zero is
encoded as the empty string, which `decode_port` rejects, so that the field keeps its default, zero again.

* `toNat_portOf` : the number that `decode_port` assembles; `decodePort_beBytes` : a port is read back;
* `fields_localRecord` : the entries of the record, field by field;
* `own_record_verifies` : the record is made, decoded and verified, and describes the configuration.
-/

namespace DevP2P.Discv5
open DevP2P.Lib DevP2P.Rlp EnrParser

/-! ## Ports -/

theorem toNat_shiftLeft_or (port : UInt16) (b : UInt8) :
    ((port <<< 8) ||| b.toUInt16).toNat = (port.toNat * 256 + b.toNat) % 2 ^ 16 := by
  have hb : b.toNat < 256 := b.toNat_lt
  have hshift : port.toNat <<< 8 % 2 ^ 16 = (port.toNat % 256) <<< 8 := by
    rw [Nat.shiftLeft_eq, Nat.shiftLeft_eq]
    omega
  rw [UInt16.toNat_or, UInt16.toNat_shiftLeft, UInt8.toNat_toUInt16, show (8 : UInt16).toNat % 16 = 8 from rfl, hshift,
    ← Nat.shiftLeft_add_eq_or_of_lt (show b.toNat < 2 ^ 8 from hb), Nat.shiftLeft_eq]
  omega

/-- The loop of `decode_port`, on a string of any length. -/
theorem toNat_portOf (bytes : Bytes) :
    (bytes.foldl (fun (port : UInt16) b => (port <<< 8) ||| b.toUInt16) 0).toNat = beLoad bytes % 2 ^ 16 := by
  induction bytes using List.reverseRecOn with
  | nil => rfl
  | append_singleton bytes b ih =>
      rw [List.foldl_append, List.foldl_cons, List.foldl_nil, toNat_shiftLeft_or, ih, beLoad_snoc]
      omega

theorem decodePort_beBytes (port : UInt16) : (decodePort (beBytes port.toNat)).toOption.getD 0 = port := by
  by_cases h0 : port = 0
  · subst h0
    rfl
  · have hne : beBytes port.toNat ≠ [] := by
      intro hnil
      apply h0
      apply UInt16.toNat_inj.mp
      rw [← beLoad_beBytes port.toNat, hnil]
      rfl
    have hlen : byteLength port.toNat ≤ kMaxPortBytes := (byteLength_le_iff _ 2).mpr port.toNat_lt
    have hport : (beBytes port.toNat).foldl (fun (port : UInt16) b => (port <<< 8) ||| b.toUInt16) 0 = port := by
      apply UInt16.toNat_inj.mp
      rw [toNat_portOf, beLoad_beBytes, Nat.mod_eq_of_lt port.toNat_lt]
    unfold decodePort
    rw [Outcome.rejectIf_bind_of_not (by simp [hne, hlen]), hport, Outcome.rejectIf_bind_of_not h0]
    rfl

/-! ## The fields -/

section

variable {env' : EnrPrimitives} {sig : FixedBytes kEnrSigBytes} {ipBytes : FixedBytes kIPv4Bytes}
  {compressed : FixedBytes kCompressedKeyBytes} {tcpPort udpPort : UInt16}

theorem fields_localRecord :
    (localRecord env' sig ipBytes compressed tcpPort udpPort).identityScheme = kIdentitySchemeV4 ∧
    (localRecord env' sig ipBytes compressed tcpPort udpPort).ip = env'.addressV4ToString ipBytes ∧
    (localRecord env' sig ipBytes compressed tcpPort udpPort).tcpPort = tcpPort ∧
    (localRecord env' sig ipBytes compressed tcpPort udpPort).udpPort = udpPort := by
  have hvalue (s : Slot) := value_loopRecord env' (localRecordBytes sig
    (localContent ipBytes compressed tcpPort udpPort))
    (BitVec.ofNat _ kInitialEnrSeq.toNat) sig.bytes (encodeList (localContent ipBytes compressed tcpPort udpPort))
    ((localEntries ipBytes compressed tcpPort udpPort).flatMap encodePair) s
  rw [entriesOf_localEntries, updatesOf_localEntries] at hvalue
  have htcp := decodePort_beBytes tcpPort
  have hudp := decodePort_beBytes udpPort
  revert hvalue htcp hudp
  -- each of the two ports is set by its entry or keeps its default
  cases (decodePort (beBytes tcpPort.toNat)).toOption <;> cases (decodePort (beBytes udpPort.toNat)).toOption <;>
    intro hvalue htcp hudp <;>
    exact ⟨Update.id.inj (Option.some.inj (hvalue .id)), Update.ip.inj (Option.some.inj (hvalue .ip)),
      (Update.tcp.inj (Option.some.inj (hvalue .tcp))).trans htcp,
      (Update.udp.inj (Option.some.inj (hvalue .udp))).trans hudp⟩

/-- The content that `decode_rlp` builds from its slice is the one that was hashed. -/
theorem lookup_content_localRecord :
    (localRecord env' sig ipBytes compressed tcpPort udpPort).extraFields.lookup kContentKey =
      some (encodeList (localContent ipBytes compressed tcpPort udpPort)) := by
  have h := (verifiedPair_loopRecord env' (localRecordBytes sig (localContent ipBytes compressed tcpPort udpPort))
    (BitVec.ofNat _ kInitialEnrSeq.toNat) sig.bytes (encodeList (localContent ipBytes compressed tcpPort udpPort))
    ((localEntries ipBytes compressed tcpPort udpPort).flatMap encodePair)).2
  rw [entriesOf_localEntries] at h
  exact h

end

/-! ## The record of a configuration -/

/-- A verified record that describes the configuration of a node bound to an IPv4 address. -/
structure Discv5Config.DescribedBy (env : ClientPrimitives) (config : Discv5Config) (addr : FixedBytes kIPv4Bytes)
    (udpPort : UInt16) (record : EnrRecord) : Prop where
  nodeId : record.nodeId = config.publicKey
  identityScheme : record.identityScheme = kIdentitySchemeV4
  seq : record.seq = 1
  ip : record.ip = env.addressV4ToString addr
  udpPort_eq : record.udpPort = udpPort
  tcpPort_eq : record.tcpPort = if config.tcpPort ≠ 0 then config.tcpPort else udpPort

variable {env : ClientPrimitives}

/-- `verify_signature` sets the node id and keeps the fields that the entries have set. -/
theorem describedBy_verifiedRecord {config : Discv5Config} {addr : FixedBytes kIPv4Bytes} {udpPort : UInt16}
    {record : EnrRecord} (hnode : (verifiedRecord env.toEnrPrimitives record).nodeId = config.publicKey)
    (hseq : record.seq = 1) (hid : record.identityScheme = kIdentitySchemeV4)
    (hip : record.ip = env.addressV4ToString addr)
    (htcp : record.tcpPort = config.advertisedTcpPort udpPort) (hudp : record.udpPort = udpPort) :
    config.DescribedBy env addr udpPort (verifiedRecord env.toEnrPrimitives record) :=
  ⟨hnode, hid, hseq, hip, hudp, htcp⟩

/-- **The node's own record verifies**, whatever its ports are, and the content that is hashed to be signed is the one
that the parser takes for verified. -/
theorem own_record_verifies {config : Discv5Config} {P : env.secp.PubKey} {addr : FixedBytes kIPv4Bytes}
    {udpPort : UInt16} (hctx : env.secp.contextCreate = true) (hpair : config.KeyPair env P)
    (hread : env.secp.ReadBack P) (haddr : env.makeAddress config.bindIp = some (.v4 addr))
    (hsign : ∃ sig, env.secp.signRecoverable (enrDigest env config (.v4 addr) udpPort P) config.privateKey = some sig)
    (hverify : env.secp.Verifies config.privateKey (enrDigest env config (.v4 addr) udpPort P) P) :
    ∃ raw record verified content,
      makeLocalEnrRecord env config udpPort = .ok raw ∧
      decodeRlp env.toEnrPrimitives raw = .ok record ∧
      verifySignature env.toEnrPrimitives record = .ok verified ∧
      config.DescribedBy env addr udpPort verified ∧
      encodeEnrList (addRecordEntries addr (env.secp.serializeCompressed P) (config.advertisedTcpPort udpPort)
        udpPort) = .ok content ∧
      enrDigest env config (.v4 addr) udpPort P = env.keccak256 content ∧
      record.extraFields.lookup kContentKey = some content := by
  obtain ⟨r, hr⟩ := hsign
  obtain ⟨s, hs, hok⟩ := hverify r hr
  have hmake : makeLocalEnrRecord env config udpPort = .ok (localRecordBytes (env.secp.recoverableSerializeCompact r).1
      (localContent addr (env.secp.serializeCompressed P) (config.advertisedTcpPort udpPort) udpPort)) := by
    refine makeLocalEnrRecord_eq_ok_iff.mpr ⟨_, ?_, .v4 addr, haddr, _, ?_, rfl⟩
    · exact compressPublicKey_eq_ok_iff.mpr ⟨hctx, P, parseNodeId_of_keyPair hpair hread, rfl⟩
    · exact signCompact_eq_ok_iff.mpr ⟨hctx, r, hr, rfl⟩
  refine ⟨_, _, _, _, hmake, decodeRlp_localRecordBytes hread.compressed_ne_zero,
    verifySignature_localRecord hctx hread.compressed hs hok, ?_, encodeEnrList_addRecordEntries .., rfl,
    lookup_content_localRecord⟩
  obtain ⟨hid, hip, htcp, hudp⟩ := @fields_localRecord env.toEnrPrimitives
    (env.secp.recoverableSerializeCompact r).1 addr
    (env.secp.serializeCompressed P) (config.advertisedTcpPort udpPort) udpPort
  exact describedBy_verifiedRecord (nodeId_verifiedRecord_localRecord hread.compressed hpair.nodeId)
    (seq_loopRecord ..) hid hip htcp hudp

/-- The record of a client that is bound to the loopback address. -/
theorem own_record_of_sampleClientA : ∃ raw record verified content,
    makeLocalEnrRecord exchangeEnv sampleClientA.config 30303 = .ok raw ∧
    decodeRlp exchangeEnv.toEnrPrimitives raw = .ok record ∧
    verifySignature exchangeEnv.toEnrPrimitives record = .ok verified ∧
    sampleClientA.config.DescribedBy exchangeEnv loopback 30303 verified ∧
    encodeEnrList (addRecordEntries loopback (exchangeEnv.secp.serializeCompressed pointA)
      (sampleClientA.config.advertisedTcpPort 30303) 30303) = .ok content ∧
    enrDigest exchangeEnv sampleClientA.config (.v4 loopback) 30303 pointA = exchangeEnv.keccak256 content ∧
    record.extraFields.lookup kContentKey = some content := by
  obtain ⟨hdigest, -, hsigns, -⟩ := computed_signatures
  obtain ⟨signature, hsignature⟩ := signCompact_of_signs hsigns
  obtain ⟨hctx, r, hr, -⟩ := signCompact_eq_ok_iff.mp hsignature
  refine own_record_verifies hctx keyPair_A readBack_A makeAddress_loopback ⟨r, ?_⟩ ?_
  · rw [hdigest]
    exact hr
  · rw [hdigest]
    exact verifies_of_signs hsigns

end DevP2P.Discv5
